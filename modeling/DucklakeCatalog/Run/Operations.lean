import DucklakeCatalog.File.Mutation

namespace DucklakeCatalog

/-- The committing entry points of the catalog on the ordered store. -/
inductive CatalogOperation where
  | createTable (now : Int) (table : TableRow)
  | appendDataFiles (now : Int) (rows : List DataFileRow) (inlineFlushes : List InlineTableFlush)
  | dataMutation (now : Int) (input : DataMutationInput)
  | mergeAdjacent (now : Int) (compaction : DataFileCompaction)
  | rewriteDelete (now : Int) (compaction : DataFileCompaction)
  | registerDeleteFiles (now : Int) (rows : List DeleteFileRow)
  | inlineFileDeletions (now : Int) (rows : List InlineFileDeletionRow)
  | registerInlinePayload (now : Int) (tableId : TableId) (schemaId : SchemaId) (payload : List UInt8)
  | registerInlinePayloadWithTable (now : Int) (table : TableRow) (schemaId : SchemaId) (payload : List UInt8)
      (commitSnapshot : Option RawSnapshotSequence)
  | expireSnapshots (rawSequences : List RawSnapshotSequence)
  | removeOldDataFiles (dataFileIds : List DataFileId)
  | removeOldDeleteFiles (deleteFileIds : List DeleteFileId)
  deriving DecidableEq, Repr

/-- Keep the store and whether the call succeeded. -/
def dropResult (outcome : CatalogResult α × CatalogKv) : CatalogResult Unit × CatalogKv :=
  (outcome.1.map fun _ => (), outcome.2)

namespace CatalogOperation

def apply (kv : CatalogKv) : CatalogOperation → CatalogResult Unit × CatalogKv
  | createTable now table => dropResult (commitCreateTableRow kv now table)
  | appendDataFiles now rows inlineFlushes =>
    dropResult (commitAppendDataFilesWithInlineFlushes kv now rows inlineFlushes)
  | dataMutation now input => dropResult (commitDataMutationWithDetails kv now input)
  | mergeAdjacent now compaction => dropResult (commitMergeAdjacentDataFiles kv now compaction)
  | rewriteDelete now compaction => dropResult (commitRewriteDeleteDataFiles kv now compaction)
  | registerDeleteFiles now rows => dropResult (commitRegisterDeleteFiles kv now rows)
  | inlineFileDeletions now rows => dropResult (commitInlineFileDeletions kv now rows)
  | registerInlinePayload now tableId schemaId payload =>
    dropResult (registerInlineTablePayload kv now tableId schemaId payload)
  | registerInlinePayloadWithTable now table schemaId payload commitSnapshot =>
    dropResult (registerInlineTablePayloadWithTableAtSnapshot kv now table schemaId payload commitSnapshot)
  | expireSnapshots rawSequences =>
    dropResult (keepOnError kv (DucklakeCatalog.expireSnapshots kv rawSequences))
  | removeOldDataFiles dataFileIds =>
    dropResult (keepOnError kv (DucklakeCatalog.removeOldDataFiles kv dataFileIds))
  | removeOldDeleteFiles deleteFileIds =>
    dropResult (keepOnError kv (DucklakeCatalog.removeOldDeleteFiles kv deleteFileIds))

/-- Ids of the data files the operation adds. -/
def newDataFileIds : CatalogOperation → List DataFileId
  | appendDataFiles _ rows _ => rows.map DataFileRow.dataFileId
  | dataMutation _ input => input.dataFiles.map DataFileRow.dataFileId
  | mergeAdjacent _ compaction => compaction.newFiles.map DataFileRow.dataFileId
  | rewriteDelete _ compaction => compaction.newFiles.map DataFileRow.dataFileId
  | _ => []

/-- Ids of the delete files the operation registers. -/
def newDeleteFileIds : CatalogOperation → List DeleteFileId
  | dataMutation _ input => input.deleteFiles.map DeleteFileRow.deleteFileId
  | registerDeleteFiles _ rows => rows.map DeleteFileRow.deleteFileId
  | _ => []

/-- Inline flushes the operation carries. -/
def inlineFlushes : CatalogOperation → List InlineTableFlush
  | appendDataFiles _ _ inlineFlushes => inlineFlushes
  | dataMutation _ input => input.inlineFlushes
  | _ => []

/-- Inline payloads the operation registers when it commits at the order. -/
def inlinePayloads (order : CatalogOrderId) : CatalogOperation → List InlineTablePayloadRow
  | registerInlinePayload _ tableId schemaId payload => [⟨tableId, schemaId, order, payload⟩]
  | registerInlinePayloadWithTable _ table schemaId payload _ => [⟨table.tableId, schemaId, order, payload⟩]
  | _ => []

/-- The batches an accepted commit may stage at the order it draws. -/
inductive Commits (kv : CatalogKv) : CatalogOperation → KvBatch → Prop
  | createTable (valid : validateCreateTable kv table = .ok ())
      (staged : stageCreateTableRow kv now table kv.generatedOrderId = .ok (result, batch)) :
      Commits kv (.createTable now table) batch
  | appendDataFiles
      (staged : stageAppendDataFiles kv now rows flushes kv.generatedOrderId = .ok (result, batch)) :
      Commits kv (.appendDataFiles now rows flushes) batch
  | dataMutation (valid : validateDataMutation kv input = .ok ())
      (staged : stageDataMutation kv now input kv.generatedOrderId = .ok (result, batch)) :
      Commits kv (.dataMutation now input) batch
  | mergeAdjacent (valid : validateMergeAdjacent kv compaction = .ok ())
      (staged : stageMergeAdjacent kv now compaction kv.generatedOrderId = .ok (result, batch)) :
      Commits kv (.mergeAdjacent now compaction) batch
  | rewriteDelete (valid : validateRewriteDelete kv compaction = .ok (tableId, normalized))
      (staged : stageRewriteDelete kv now normalized tableId kv.generatedOrderId = .ok (result, batch)) :
      Commits kv (.rewriteDelete now compaction) batch
  | registerDeleteFiles (staged : stageRegisterDeleteFiles kv now rows kv.generatedOrderId = .ok (result, batch)) :
      Commits kv (.registerDeleteFiles now rows) batch
  | inlineFileDeletions (staged : stageInlineFileDeletions kv now rows kv.generatedOrderId = .ok (result, batch)) :
      Commits kv (.inlineFileDeletions now rows) batch
  | registerInlinePayload (valid : validateInlineTablePayload payload = .ok ())
      (staged : stageInlineTablePayload kv now tableId schemaId payload kv.generatedOrderId = .ok (result, batch)) :
      Commits kv (.registerInlinePayload now tableId schemaId payload) batch
  | registerInlinePayloadWithTable
      (valid : inlineTableVersionToReplace kv table payload commitSnapshot = .ok (previousTable, rawSequence))
      (staged : stageInlineTablePayloadWithTable kv now table previousTable schemaId payload rawSequence
        kv.generatedOrderId = .ok (result, batch)) :
      Commits kv (.registerInlinePayloadWithTable now table schemaId payload commitSnapshot) batch

/-- The batches accepted maintenance may stage; it draws no order. -/
inductive Maintains (kv : CatalogKv) : CatalogOperation → KvBatch → Prop
  | expireSnapshots (staged : stageExpiredSnapshots kv rawSequences = .ok (result, batch)) :
      Maintains kv (.expireSnapshots rawSequences) batch
  | removeOldDataFiles (staged : stageRemoveOldDataFiles kv dataFileIds = .ok (result, batch)) :
      Maintains kv (.removeOldDataFiles dataFileIds) batch
  | removeOldDeleteFiles (staged : stageRemoveOldDeleteFiles kv deleteFileIds = .ok (result, batch)) :
      Maintains kv (.removeOldDeleteFiles deleteFileIds) batch

/-- Everything one call can do to the store. -/
inductive Outcome (kv : CatalogKv) (operation : CatalogOperation) : CatalogResult Unit × CatalogKv → Prop
  | rejected (failure : CatalogError) : Outcome kv operation (.error failure, kv)
  | rejectedWithOrder (failure : CatalogError) : Outcome kv operation (.error failure, kv.withGeneratedOrder)
  | nothingToDo (noDataFiles : operation.newDataFileIds = []) (noDeleteFiles : operation.newDeleteFileIds = [])
      (noFlushes : operation.inlineFlushes = []) (noPayloads : ∀ order, operation.inlinePayloads order = []) :
      Outcome kv operation (.ok (), kv)
  | committed (commits : operation.Commits kv batch) :
      Outcome kv operation (.ok (), kv.withGeneratedOrder.commit batch)
  | maintained (maintains : operation.Maintains kv batch) : Outcome kv operation (.ok (), kv.commit batch)

variable {kv : CatalogKv}

private theorem outcome_commitWith {operation : CatalogOperation}
    {stage : CatalogOrderId → CatalogResult (α × KvBatch)}
    (commits : ∀ result batch, stage kv.generatedOrderId = .ok (result, batch) → operation.Commits kv batch) :
    Outcome kv operation (dropResult (commitWith kv stage)) := by
  rcases commitWith_cases kv stage with ⟨failure, same⟩ | ⟨result, batch, staged, same⟩
  · rw [same]
    exact .rejectedWithOrder failure
  · rw [same]
    exact .committed (commits result batch staged)

private theorem outcome_maintenance {operation : CatalogOperation} {stage : CatalogResult (α × KvBatch)}
    (maintains : ∀ result batch, stage = .ok (result, batch) → operation.Maintains kv batch) :
    Outcome kv operation (dropResult (keepOnError kv do
      let (result, batch) ← stage
      return (result, kv.commit batch))) := by
  cases outcome : stage with
  | error failure => exact .rejected failure
  | ok staged => exact .maintained (maintains staged.1 staged.2 outcome)

theorem apply_outcome (kv : CatalogKv) (operation : CatalogOperation) :
    Outcome kv operation (operation.apply kv) := by
  cases operation with
  | createTable now table =>
    simp only [apply, commitCreateTableRow]
    split
    · exact .rejected _
    · rename_i valid
      exact outcome_commitWith fun _ _ staged => .createTable valid staged
  | appendDataFiles now rows inlineFlushes =>
    simp only [apply, commitAppendDataFilesWithInlineFlushes]
    split
    · rename_i empty
      exact .nothingToDo (by simp [newDataFileIds, empty]) rfl empty.2 fun _ => rfl
    · exact outcome_commitWith fun _ _ staged => .appendDataFiles staged
  | dataMutation now input =>
    simp only [apply, commitDataMutationWithDetails]
    split
    · rename_i empty
      exact .nothingToDo (by simp [newDataFileIds, empty]) (by simp [newDeleteFileIds, empty])
        (by simp [inlineFlushes, empty]) fun _ => rfl
    · split
      · exact .rejected _
      · rename_i valid
        exact outcome_commitWith fun _ _ staged => .dataMutation valid staged
  | mergeAdjacent now compaction =>
    simp only [apply, commitMergeAdjacentDataFiles]
    split
    · exact .rejected _
    · rename_i valid
      exact outcome_commitWith fun _ _ staged => .mergeAdjacent valid staged
  | rewriteDelete now compaction =>
    simp only [apply, commitRewriteDeleteDataFiles]
    split
    · exact .rejected _
    · rename_i valid
      exact outcome_commitWith fun _ _ staged => .rewriteDelete valid staged
  | registerDeleteFiles now rows =>
    simp only [apply, commitRegisterDeleteFiles]
    split
    · rename_i empty
      exact .nothingToDo rfl (by simp [newDeleteFileIds, empty]) rfl fun _ => rfl
    · exact outcome_commitWith fun _ _ staged => .registerDeleteFiles staged
  | inlineFileDeletions now rows =>
    simp only [apply, commitInlineFileDeletions]
    split
    · exact .nothingToDo rfl rfl rfl fun _ => rfl
    · exact outcome_commitWith fun _ _ staged => .inlineFileDeletions staged
  | registerInlinePayload now tableId schemaId payload =>
    simp only [apply, registerInlineTablePayload]
    split
    · exact .rejected _
    · rename_i valid
      exact outcome_commitWith fun _ _ staged => .registerInlinePayload valid staged
  | registerInlinePayloadWithTable now table schemaId payload commitSnapshot =>
    simp only [apply, registerInlineTablePayloadWithTableAtSnapshot]
    split
    · exact .rejected _
    · rename_i valid
      exact outcome_commitWith fun _ _ staged => .registerInlinePayloadWithTable valid staged
  | expireSnapshots rawSequences =>
    simp only [apply, DucklakeCatalog.expireSnapshots]
    split
    · exact .nothingToDo rfl rfl rfl fun _ => rfl
    · exact outcome_maintenance fun _ _ staged => .expireSnapshots staged
  | removeOldDataFiles dataFileIds =>
    simp only [apply, DucklakeCatalog.removeOldDataFiles]
    split
    · exact .nothingToDo rfl rfl rfl fun _ => rfl
    · exact outcome_maintenance fun _ _ staged => .removeOldDataFiles staged
  | removeOldDeleteFiles deleteFileIds =>
    simp only [apply, DucklakeCatalog.removeOldDeleteFiles]
    split
    · exact .nothingToDo rfl rfl rfl fun _ => rfl
    · exact outcome_maintenance fun _ _ staged => .removeOldDeleteFiles staged

end CatalogOperation

/-! ## Histories -/

/-- A store together with the file ids its accepted operations have used so far. -/
structure CatalogHistory where
  kv : CatalogKv
  dataFileIds : List DataFileId := []
  deleteFileIds : List DeleteFileId := []

namespace CatalogHistory

/-- A new catalog: the order generator may already have served other catalogs. -/
def start (lastOrder : CatalogOrderId) (now : Int) : CatalogHistory where
  kv := (initializeEmptyCatalog { nextOrder := lastOrder } now).2

/-- The history once the operation's batch is committed at the order it drew. -/
def committed (history : CatalogHistory) (operation : CatalogOperation) (batch : KvBatch) : CatalogHistory where
  kv := history.kv.withGeneratedOrder.commit batch
  dataFileIds := history.dataFileIds ++ operation.newDataFileIds
  deleteFileIds := history.deleteFileIds ++ operation.newDeleteFileIds

def maintained (history : CatalogHistory) (batch : KvBatch) : CatalogHistory :=
  { history with kv := history.kv.commit batch }

def after (history : CatalogHistory) (operation : CatalogOperation) : CatalogHistory :=
  match operation.apply history.kv with
  | (.error _, kv) => { history with kv }
  | (.ok _, kv) =>
    { kv
      dataFileIds := history.dataFileIds ++ operation.newDataFileIds
      deleteFileIds := history.deleteFileIds ++ operation.newDeleteFileIds }

def run (history : CatalogHistory) (operations : List CatalogOperation) : CatalogHistory :=
  operations.foldl after history

/-- A removal request without ids or without a cleanup listing changes nothing. -/
theorem after_removeOldDataFiles (history : CatalogHistory) (dataFileIds : List DataFileId) :
    ((dataFileIds = [] ∨ ∃ failure, stageRemoveOldDataFiles history.kv dataFileIds = .error failure) ∧
        (history.after (.removeOldDataFiles dataFileIds)).kv = history.kv) ∨
      ∃ removed batch, stageRemoveOldDataFiles history.kv dataFileIds = .ok (removed, batch) ∧
        (history.after (.removeOldDataFiles dataFileIds)).kv = history.kv.commit batch := by
  simp only [after, CatalogOperation.apply, removeOldDataFiles]
  split_ifs with empty
  · exact Or.inl ⟨Or.inl empty, rfl⟩
  · cases staged : stageRemoveOldDataFiles history.kv dataFileIds with
    | error failure => exact Or.inl ⟨Or.inr ⟨failure, rfl⟩, rfl⟩
    | ok result => exact Or.inr ⟨result.1, result.2, rfl, rfl⟩

theorem after_removeOldDeleteFiles (history : CatalogHistory) (deleteFileIds : List DeleteFileId) :
    ((deleteFileIds = [] ∨ ∃ failure, stageRemoveOldDeleteFiles history.kv deleteFileIds = .error failure) ∧
        (history.after (.removeOldDeleteFiles deleteFileIds)).kv = history.kv) ∨
      ∃ removed batch, stageRemoveOldDeleteFiles history.kv deleteFileIds = .ok (removed, batch) ∧
        (history.after (.removeOldDeleteFiles deleteFileIds)).kv = history.kv.commit batch := by
  simp only [after, CatalogOperation.apply, removeOldDeleteFiles]
  split_ifs with empty
  · exact Or.inl ⟨Or.inl empty, rfl⟩
  · cases staged : stageRemoveOldDeleteFiles history.kv deleteFileIds with
    | error failure => exact Or.inl ⟨Or.inr ⟨failure, rfl⟩, rfl⟩
    | ok result => exact Or.inr ⟨result.1, result.2, rfl, rfl⟩

/-- Every new data file has an id no earlier accepted operation used. -/
def FreshDataFileIds (history : CatalogHistory) (operation : CatalogOperation) : Prop :=
  operation.newDataFileIds.Nodup ∧ ∀ dataFileId ∈ operation.newDataFileIds, dataFileId ∉ history.dataFileIds

def FreshDeleteFileIds (history : CatalogHistory) (operation : CatalogOperation) : Prop :=
  operation.newDeleteFileIds.Nodup ∧
    ∀ deleteFileId ∈ operation.newDeleteFileIds, deleteFileId ∉ history.deleteFileIds

def FreshFileIds (history : CatalogHistory) (operation : CatalogOperation) : Prop :=
  history.FreshDataFileIds operation ∧ history.FreshDeleteFileIds operation

instance : Decidable (FreshDataFileIds history operation) := inferInstanceAs (Decidable (_ ∧ _))

instance : Decidable (FreshDeleteFileIds history operation) := inferInstanceAs (Decidable (_ ∧ _))

instance : Decidable (FreshFileIds history operation) := inferInstanceAs (Decidable (_ ∧ _))

/-- Histories of a new catalog in which every operation was allowed where it was applied. -/
inductive Reachable (Allowed : CatalogHistory → CatalogOperation → Prop) : CatalogHistory → Prop
  | start (lastOrder : CatalogOrderId) (now : Int) : Reachable Allowed (CatalogHistory.start lastOrder now)
  | step (earlier : Reachable Allowed history) (allowed : Allowed history operation) :
      Reachable Allowed (history.after operation)

/-- One operation keeps what a used up order, its commit and its maintenance keep. -/
theorem after_invariant (Invariant : CatalogHistory → Prop) {history : CatalogHistory} {operation : CatalogOperation}
    (holds : Invariant history) (generated : Invariant { history with kv := history.kv.withGeneratedOrder })
    (committed : ∀ batch, operation.Commits history.kv batch → Invariant (history.committed operation batch))
    (maintained : ∀ batch, operation.Maintains history.kv batch → Invariant (history.maintained batch)) :
    Invariant (history.after operation) := by
  unfold after
  have outcome := operation.apply_outcome history.kv
  generalize operation.apply history.kv = result at outcome
  cases outcome with
  | rejected failure => exact holds
  | rejectedWithOrder failure => exact generated
  | nothingToDo noDataFiles noDeleteFiles _ _ => simpa [noDataFiles, noDeleteFiles] using holds
  | committed commits => exact committed _ commits
  | maintained maintains =>
    have kept := maintained _ maintains
    have noDataFiles : operation.newDataFileIds = [] := by
      cases maintains with
      | expireSnapshots => rfl
      | removeOldDataFiles => rfl
      | removeOldDeleteFiles => rfl
    have noDeleteFiles : operation.newDeleteFileIds = [] := by
      cases maintains with
      | expireSnapshots => rfl
      | removeOldDataFiles => rfl
      | removeOldDeleteFiles => rfl
    simpa [noDataFiles, noDeleteFiles, CatalogHistory.maintained] using kept

variable {Allowed : CatalogHistory → CatalogOperation → Prop}

/-- An invariant of every reachable history: it survives a used up order, a commit and maintenance. -/
theorem Reachable.invariant (Invariant : CatalogHistory → Prop)
    (initially : ∀ lastOrder now, Invariant (CatalogHistory.start lastOrder now))
    (generated : ∀ history, Invariant history → Invariant { history with kv := history.kv.withGeneratedOrder })
    (committed : ∀ history operation batch, Invariant history → Allowed history operation →
      operation.Commits history.kv batch → Invariant (history.committed operation batch))
    (maintained : ∀ history operation batch, Invariant history → Allowed history operation →
      operation.Maintains history.kv batch → Invariant (history.maintained batch))
    (reachable : Reachable Allowed history) : Invariant history := by
  induction reachable with
  | start lastOrder now => exact initially lastOrder now
  | @step history operation _ allowed ih =>
    exact after_invariant Invariant ih (generated history ih)
      (fun batch commits => committed history operation batch ih allowed commits)
      (fun batch maintains => maintained history operation batch ih allowed maintains)

theorem Reachable.mono {Wider : CatalogHistory → CatalogOperation → Prop}
    (wider : ∀ history operation, Allowed history operation → Wider history operation)
    (reachable : Reachable Allowed history) : Reachable Wider history := by
  induction reachable with
  | start lastOrder now => exact .start lastOrder now
  | step _ allowed ih => exact .step ih (wider _ _ allowed)

/-- The operations of a run, each allowed after the ones before it. -/
def Allows (Allowed : CatalogHistory → CatalogOperation → Prop) (history : CatalogHistory) :
    List CatalogOperation → Prop
  | [] => True
  | operation :: rest => Allowed history operation ∧ Allows Allowed (history.after operation) rest

instance decidableAllows {Allowed : CatalogHistory → CatalogOperation → Prop}
    [allowed : ∀ history operation, Decidable (Allowed history operation)] (history : CatalogHistory) :
    (operations : List CatalogOperation) → Decidable (Allows Allowed history operations)
  | [] => inferInstanceAs (Decidable True)
  | operation :: rest =>
    @instDecidableAnd _ _ (allowed history operation) (decidableAllows (history.after operation) rest)

theorem Reachable.run (reachable : Reachable Allowed history)
    (allowed : Allows Allowed history operations) : Reachable Allowed (history.run operations) := by
  induction operations generalizing history with
  | nil => exact reachable
  | cons operation rest ih => exact ih (.step reachable allowed.1) allowed.2

end CatalogHistory

end DucklakeCatalog
