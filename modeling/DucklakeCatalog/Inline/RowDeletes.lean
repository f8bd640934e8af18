import DucklakeCatalog.File.Mutation
import DucklakeCatalog.Snapshot.PublicSequences

namespace DucklakeCatalog

open KeyedStore

structure InlineTableDeleteCommit where
  deletedRowCount : Nat
  rewrittenPayloadCount : Nat
  deriving DecidableEq, Repr

/-! ## The snapshot of a deletion -/

structure InlineDeleteTarget where
  snapshot : SnapshotRow
  stageSnapshot : Bool
  deriving DecidableEq, Repr

/-- A sequence that names a snapshot deletes at its order; otherwise the deletion draws an order of its own. -/
def inlineDeleteTarget (kv : CatalogKv) (now : Int) (latest : SnapshotRow)
    (commitSnapshot : Option RawSnapshotSequence) : InlineDeleteTarget :=
  match commitSnapshot.bind (snapshotByDucklakeSequence kv) with
  | some snapshot => { snapshot, stageSnapshot := false }
  | none =>
    { snapshot := snapshotRowForNextSequence (some latest) kv.generatedOrderId now, stageSnapshot := true }

/-! ## Deletions already made -/

/-- Row ids with the sequences of their deletions. -/
abbrev ExistingInlineDeletions := List (Nat × RawSnapshotSequence)

/-- Deletions whose snapshot has no public sequence are left out. -/
def ExistingInlineDeletions.load (kv : CatalogKv) (metadata : CatalogMetadata) (tableId : TableId)
    (schemaId : SchemaId) (latestOrder : CatalogOrderId) : CatalogResult ExistingInlineDeletions := do
  let changes ← listInlineRowChanges kv tableId 0 latestOrder
  let found ← (changes.filter fun change =>
      decide (change.schemaId = schemaId) && decide (change.kind = .deleted)).mapM fun change => do
    let sequence ← publicSnapshotSequenceForOrder kv metadata change.order
    return sequence.map fun sequence => (change.rowId, sequence)
  return found.filterMap id

def ExistingInlineDeletions.hidesRowVersionBefore (deletions : ExistingInlineDeletions) (rowId : Nat)
    (beginSnapshot beforeSnapshot : RawSnapshotSequence) : Bool :=
  deletions.any fun deletion =>
    decide (deletion.1 = rowId) && decide (beginSnapshot < deletion.2) && decide (deletion.2 < beforeSnapshot)

/-! ## Deleting rows -/

/-- The chunks visible at the order, by begin order. -/
def visibleInlinePayloadChunks (kv : CatalogKv) (tableId : TableId) (schemaId : SchemaId)
    (snapshotOrder : CatalogOrderId) : List (CatalogOrderId × List InlineTableChunkRow) :=
  let endOrders := inlineTableEndOrdersAt kv tableId schemaId snapshotOrder
  groupChunksByBegin ((inlineTableChunkRows kv tableId schemaId).filter fun row =>
    inlineChunkVisibleAt row endOrders snapshotOrder)

/-- The ids among the asked ones that the payload has a line for, line by line. -/
def filterDeletedRows (payload : List UInt8) (deleted : List Nat) : CatalogResult (List Nat) :=
  if isUtf8 payload then do
    let rowIds ← (payloadLines payload).mapM fun line =>
      match inlineRowId line with
      | .ok rowId => .ok rowId
      | .error failure => .error failure.toCatalogError
    return rowIds.filter fun rowId => rowId ∈ deleted
  else
    .error InlinePayloadError.notUtf8.toCatalogError

/-- The deletions staged so far and the ids of the row versions they hide. -/
structure StagedInlineDeletes where
  batch : KvBatch := {}
  hidden : List Nat := []

def stageInlineRowChange (batch : KvBatch) (tableId : TableId) (schemaId : SchemaId) (order : CatalogOrderId)
    (kind : InlineRowChangeKind) (rowId : Nat) : KvBatch :=
  stageInlineRowChangeKey (stageInlineTableChange batch tableId order kind) tableId schemaId order kind rowId

/-- One row version is deleted once; a second live version of the row is an error. -/
def stageInlineRowDelete (tableId : TableId) (schemaId : SchemaId) (order : CatalogOrderId)
    (existing : ExistingInlineDeletions) (beginSnapshot beforeSnapshot : RawSnapshotSequence)
    (staged : StagedInlineDeletes) (rowId : Nat) : CatalogResult StagedInlineDeletes :=
  if existing.hidesRowVersionBefore rowId beginSnapshot beforeSnapshot then .ok staged
  else if rowId ∈ staged.hidden then
    .error (.invalidMutation
      s!"inline row id {rowId} matches multiple live payload versions for table {tableId} schema {schemaId}")
  else
    .ok {
      batch := stageInlineRowChange staged.batch tableId schemaId order .deleted rowId
      hidden := staged.hidden ++ [rowId] }

/-- Payloads begun at the sequence of the deletion or later are left alone. -/
def stagePayloadDeletes (kv : CatalogKv) (metadata : CatalogMetadata) (tableId : TableId) (schemaId : SchemaId)
    (deleted : List Nat) (target : InlineDeleteTarget) (existing : ExistingInlineDeletions)
    (staged : StagedInlineDeletes) (payload : CatalogOrderId × List InlineTableChunkRow) :
    CatalogResult StagedInlineDeletes := do
  let found ← publicSnapshotSequenceForOrder kv metadata payload.1
  let beginSnapshot ← found.elim (.error (.notFound "inline payload snapshot")) .ok
  if target.snapshot.sequence ≤ beginSnapshot then return staged
  else do
    let bytes ← assembleInlinePayload payload.2
    let rowIds ← filterDeletedRows bytes deleted
    rowIds.foldlM (stageInlineRowDelete tableId schemaId target.snapshot.order existing beginSnapshot
      target.snapshot.sequence) staged

/-- Everything a deletion reads and stages. -/
def stageInlineDeletes (kv : CatalogKv) (metadata : CatalogMetadata) (tableId : TableId) (schemaId : SchemaId)
    (deleted : List Nat) (latest : SnapshotRow) (target : InlineDeleteTarget) : CatalogResult StagedInlineDeletes := do
  let existing ← ExistingInlineDeletions.load kv metadata tableId schemaId latest.order
  (visibleInlinePayloadChunks kv tableId schemaId latest.order).foldlM
    (stagePayloadDeletes kv metadata tableId schemaId deleted target existing) {}

theorem stageInlineRowDelete_changes {tableId : TableId} {schemaId : SchemaId} {order : CatalogOrderId}
    {existing : ExistingInlineDeletions} {beginSnapshot beforeSnapshot : RawSnapshotSequence}
    {staged next : StagedInlineDeletes} {rowId : Nat}
    (success : stageInlineRowDelete tableId schemaId order existing beginSnapshot beforeSnapshot staged rowId = .ok next) :
    staged.batch.ChangesInlineRows next.batch := by
  unfold stageInlineRowDelete at success
  split at success
  · rw [← Except.ok.inj success]
    exact ⟨_, _, _, rfl⟩
  · split at success
    · simp at success
    · rw [← Except.ok.inj success]
      exact ⟨_, _, _, rfl⟩

/-- A deletion stages nothing but row changes. -/
theorem stageInlineDeletes_changes {kv : CatalogKv} {metadata : CatalogMetadata} {tableId : TableId}
    {schemaId : SchemaId} {deleted : List Nat} {latest : SnapshotRow} {target : InlineDeleteTarget}
    {staged : StagedInlineDeletes}
    (success : stageInlineDeletes kv metadata tableId schemaId deleted latest target = .ok staged) :
    ({} : KvBatch).ChangesInlineRows staged.batch := by
  unfold stageInlineDeletes at success
  rw [bind_eq_ok] at success
  obtain ⟨existing, _, success⟩ := success
  refine foldlM_invariant (fun state : StagedInlineDeletes => ({} : KvBatch).ChangesInlineRows state.batch) success
    ⟨_, _, _, rfl⟩ ?_
  intro state payload next _ soFar taken
  unfold stagePayloadDeletes at taken
  simp only [bind_eq_ok] at taken
  obtain ⟨_, _, beginSnapshot, _, taken⟩ := taken
  split at taken
  · rw [← Except.ok.inj taken]
    exact soFar
  · simp only [bind_eq_ok] at taken
    obtain ⟨_, _, _, _, taken⟩ := taken
    refine foldlM_invariant (fun state : StagedInlineDeletes => ({} : KvBatch).ChangesInlineRows state.batch) taken
      soFar ?_
    intro state rowId next _ soFar taken
    exact soFar.trans (stageInlineRowDelete_changes taken)

/-- The batch is committed only when it deletes something; the count tells how many versions it hides. -/
def commitInlineDeletes (kv : CatalogKv) (target : InlineDeleteTarget) (staged : StagedInlineDeletes) :
    InlineTableDeleteCommit × CatalogKv :=
  if staged.hidden = [] then (⟨0, 0⟩, kv)
  else
    let batch := if target.stageSnapshot then stageSnapshot staged.batch target.snapshot else staged.batch
    (⟨staged.hidden.length, 0⟩, kv.commit batch)

/-- The reads of a deletion see the store before it; an order it drew stays used up. -/
def commitDeleteInlineTableRowsAtSnapshot (kv : CatalogKv) (now : Int) (metadata : CatalogMetadata)
    (tableId : TableId) (schemaId : SchemaId) (deletedRowIds : List Nat)
    (commitSnapshot : Option RawSnapshotSequence) : CatalogResult InlineTableDeleteCommit × CatalogKv :=
  if deletedRowIds = [] then (.ok ⟨0, 0⟩, kv)
  else
    match latestSnapshot kv with
    | none => (.error (.notFound "snapshot"), kv)
    | some latest =>
      let target := inlineDeleteTarget kv now latest commitSnapshot
      let drawn := if target.stageSnapshot then kv.withGeneratedOrder else kv
      match stageInlineDeletes kv metadata tableId schemaId deletedRowIds latest target with
      | .error failure => (.error failure, drawn)
      | .ok staged =>
        let (commit, next) := commitInlineDeletes drawn target staged
        (.ok commit, next)

end DucklakeCatalog
