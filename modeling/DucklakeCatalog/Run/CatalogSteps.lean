import DucklakeCatalog.Inline.PayloadCleanup
import DucklakeCatalog.Inline.RowDeletes
import DucklakeCatalog.Run.Operations
import Mathlib.Logic.Relation

namespace DucklakeCatalog

open KeyedStore

/-- The calls that change a catalog, those on inline rows and payloads included. -/
inductive CatalogStep where
  | call (operation : CatalogOperation)
  | deleteInlineRows (now : Int) (metadata : CatalogMetadata) (tableId : TableId) (schemaId : SchemaId)
      (deletedRowIds : List Nat) (commitSnapshot : Option RawSnapshotSequence)
  | removeOldInlinePayloads (inlineIds : List InlineTableCleanupId)
  deriving DecidableEq, Repr

namespace CatalogStep

def apply (kv : CatalogKv) : CatalogStep → CatalogResult Unit × CatalogKv
  | call operation => operation.apply kv
  | deleteInlineRows now metadata tableId schemaId deletedRowIds commitSnapshot =>
    dropResult (commitDeleteInlineTableRowsAtSnapshot kv now metadata tableId schemaId deletedRowIds commitSnapshot)
  | removeOldInlinePayloads inlineIds => dropResult (keepOnError kv (removeOldInlineTablePayloads kv inlineIds))

/-- The row deletions a call commits, with the target they are committed at. -/
structure DeletesInlineRows (kv : CatalogKv) (now : Int) (metadata : CatalogMetadata) (tableId : TableId)
    (schemaId : SchemaId) (deletedRowIds : List Nat) (commitSnapshot : Option RawSnapshotSequence)
    (latest : SnapshotRow) (target : InlineDeleteTarget) (staged : StagedInlineDeletes) : Prop where
  isLatest : latestSnapshot kv = some latest
  targets : inlineDeleteTarget kv now latest commitSnapshot = target
  stages : stageInlineDeletes kv metadata tableId schemaId deletedRowIds latest target = .ok staged

/-- Everything a step can leave in the store. -/
inductive Leaves (kv : CatalogKv) : CatalogStep → CatalogKv → Prop
  | unchanged (step : CatalogStep) : Leaves kv step kv
  | drawn (step : CatalogStep) : Leaves kv step kv.withGeneratedOrder
  | committed (commits : operation.Commits kv batch) :
      Leaves kv (.call operation) (kv.withGeneratedOrder.commit batch)
  | maintained (maintains : operation.Maintains kv batch) : Leaves kv (.call operation) (kv.commit batch)
  | deletedAtNewSnapshot
      (deletes : DeletesInlineRows kv now metadata tableId schemaId deletedRowIds commitSnapshot latest target staged)
      (draws : target.stageSnapshot = true) (hides : staged.hidden ≠ []) :
      Leaves kv (.deleteInlineRows now metadata tableId schemaId deletedRowIds commitSnapshot)
        (kv.withGeneratedOrder.commit (stageSnapshot staged.batch target.snapshot))
  | deletedAtSnapshot
      (deletes : DeletesInlineRows kv now metadata tableId schemaId deletedRowIds commitSnapshot latest target staged)
      (names : target.stageSnapshot = false) (hides : staged.hidden ≠ []) :
      Leaves kv (.deleteInlineRows now metadata tableId schemaId deletedRowIds commitSnapshot) (kv.commit staged.batch)
  | removedPayloads (staged : stageRemoveOldInlineTablePayloads kv inlineIds = .ok (rows, batch)) :
      Leaves kv (.removeOldInlinePayloads inlineIds) (kv.commit batch)

/-- A row deletion commits its batch, or nothing; the order it drew stays used up. -/
theorem leaves_deleteInlineRows (kv : CatalogKv) (now : Int) (metadata : CatalogMetadata) (tableId : TableId)
    (schemaId : SchemaId) (deletedRowIds : List Nat) (commitSnapshot : Option RawSnapshotSequence) :
    Leaves kv (.deleteInlineRows now metadata tableId schemaId deletedRowIds commitSnapshot)
      (commitDeleteInlineTableRowsAtSnapshot kv now metadata tableId schemaId deletedRowIds commitSnapshot).2 := by
  have drawn (draws : Bool) :
      Leaves kv (.deleteInlineRows now metadata tableId schemaId deletedRowIds commitSnapshot)
        (if draws then kv.withGeneratedOrder else kv) := by
    cases draws with
    | true => exact .drawn _
    | false => exact .unchanged _
  unfold commitDeleteInlineTableRowsAtSnapshot
  by_cases noRows : deletedRowIds = []
  · rw [if_pos noRows]
    exact .unchanged _
  rw [if_neg noRows]
  cases isLatest : latestSnapshot kv with
  | none => exact .unchanged _
  | some latest =>
    dsimp only
    cases stages : stageInlineDeletes kv metadata tableId schemaId deletedRowIds latest
        (inlineDeleteTarget kv now latest commitSnapshot) with
    | error failure => exact drawn _
    | ok staged =>
      dsimp only [commitInlineDeletes]
      by_cases none : staged.hidden = []
      · simp only [if_pos none]
        exact drawn _
      · simp only [if_neg none]
        have deletes : DeletesInlineRows kv now metadata tableId schemaId deletedRowIds commitSnapshot latest
            (inlineDeleteTarget kv now latest commitSnapshot) staged := ⟨isLatest, rfl, stages⟩
        cases draws : (inlineDeleteTarget kv now latest commitSnapshot).stageSnapshot with
        | true => exact .deletedAtNewSnapshot deletes draws none
        | false => exact .deletedAtSnapshot deletes draws none

theorem apply_leaves (kv : CatalogKv) (step : CatalogStep) : Leaves kv step (step.apply kv).2 := by
  cases step with
  | call operation =>
    have outcome := operation.apply_outcome kv
    have same : (CatalogStep.call operation).apply kv = operation.apply kv := rfl
    rw [same]
    generalize operation.apply kv = result at outcome
    cases outcome with
    | rejected => exact .unchanged _
    | rejectedWithOrder => exact .drawn _
    | nothingToDo => exact .unchanged _
    | committed commits => exact .committed commits
    | maintained maintains => exact .maintained maintains
  | deleteInlineRows now metadata tableId schemaId deletedRowIds commitSnapshot =>
    exact leaves_deleteInlineRows kv now metadata tableId schemaId deletedRowIds commitSnapshot
  | removeOldInlinePayloads inlineIds =>
    simp only [apply, removeOldInlineTablePayloads]
    split
    · exact .unchanged _
    · cases staged : stageRemoveOldInlineTablePayloads kv inlineIds with
      | error failure => exact .unchanged _
      | ok result => exact .removedPayloads staged

end CatalogStep

/-! ## Runs -/

def Steps (kv next : CatalogKv) : Prop := ∃ step : CatalogStep, (step.apply kv).2 = next

/-- Some run of calls leads from the store to the other one. -/
def CatalogKv.Reaches (kv next : CatalogKv) : Prop := Relation.ReflTransGen Steps kv next

/-- The stores a new catalog can come to. -/
def CatalogKv.Reachable (kv : CatalogKv) : Prop :=
  ∃ lastOrder now, (CatalogHistory.start lastOrder now).kv.Reaches kv

section

variable {kv later : CatalogKv}

/-- What every step keeps, every run keeps. -/
theorem CatalogKv.Reaches.invariant (holds : CatalogKv → Prop)
    (kept : ∀ kv step next, holds kv → CatalogStep.Leaves kv step next → holds next) (reaches : kv.Reaches later)
    (start : holds kv) : holds later := by
  induction reaches with
  | refl => exact start
  | tail _ taken ih =>
    obtain ⟨step, rfl⟩ := taken
    exact kept _ step _ ih (step.apply_leaves _)

theorem CatalogKv.Reachable.invariant (holds : CatalogKv → Prop)
    (initially : ∀ lastOrder now, holds (CatalogHistory.start lastOrder now).kv)
    (kept : ∀ kv step next, holds kv → CatalogStep.Leaves kv step next → holds next) (reachable : kv.Reachable) :
    holds kv := by
  obtain ⟨lastOrder, now, reaches⟩ := reachable
  exact reaches.invariant holds kept (initially lastOrder now)

theorem CatalogKv.Reachable.step (reachable : kv.Reachable) (step : CatalogStep) : (step.apply kv).2.Reachable := by
  obtain ⟨lastOrder, now, reaches⟩ := reachable
  exact ⟨lastOrder, now, reaches.tail ⟨step, rfl⟩⟩

/-- The store after the calls, in order. -/
def runSteps (kv : CatalogKv) (steps : List CatalogStep) : CatalogKv :=
  steps.foldl (fun kv step => (step.apply kv).2) kv

theorem reaches_runSteps (kv : CatalogKv) (steps : List CatalogStep) : kv.Reaches (runSteps kv steps) := by
  induction steps generalizing kv with
  | nil => exact .refl
  | cons step rest ih => exact .head ⟨step, rfl⟩ (ih _)

theorem reachable_runSteps (lastOrder : CatalogOrderId) (now : Int) (steps : List CatalogStep) :
    (runSteps (CatalogHistory.start lastOrder now).kv steps).Reachable :=
  ⟨lastOrder, now, reaches_runSteps _ steps⟩

end

end DucklakeCatalog
