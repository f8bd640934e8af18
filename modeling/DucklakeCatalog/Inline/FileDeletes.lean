import DucklakeCatalog.Snapshot.Store

namespace DucklakeCatalog

open KeyedStore

structure InlineTableFlush where
  tableId : TableId
  schemaId : SchemaId
  flushSnapshotSequence : RawSnapshotSequence
  /-- A file-deletion flush ends inline file deletions only and must not hide inlined data. -/
  flushInlineData : Bool
  deriving DecidableEq, Repr

def InlineTableFlush.new (tableId : TableId) (schemaId : SchemaId) (sequence : RawSnapshotSequence) :
    InlineTableFlush :=
  ⟨tableId, schemaId, sequence, true⟩

def InlineTableFlush.fileDeletionsOnly (tableId : TableId) (sequence : RawSnapshotSequence) : InlineTableFlush :=
  ⟨tableId, 0, sequence, false⟩

def inlineFileDeletionKey (row : InlineFileDeletionRow) : InlineFileDeletionKey :=
  ⟨row.tableId, row.dataFileId, row.validity.beginOrder, row.rowId⟩

def stageInlineFileDeletion (batch : KvBatch) (row : InlineFileDeletionRow) : KvBatch :=
  { batch with inlineFileDeletion := batch.inlineFileDeletion.put (inlineFileDeletionKey row) row }

/-- The begin order of a stored deletion is the one its key names. -/
def decodeInlineFileDeletion (entry : InlineFileDeletionKey × InlineFileDeletionRow) : InlineFileDeletionRow :=
  { entry.2 with validity := { entry.2.validity with beginOrder := entry.1.beginOrder } }

def inlineFileDeletionRows (kv : CatalogKv) (tableId : TableId) : List InlineFileDeletionRow :=
  (kv.inlineFileDeletion.scan fun key => key.tableId = tableId).map decodeInlineFileDeletion

def listAllInlineFileDeletionRowsForTable (kv : CatalogKv) (tableId : TableId) : List InlineFileDeletionRow :=
  (inlineFileDeletionRows kv tableId).insertionSort fun left right =>
    toLex (left.dataFileId, toLex (left.rowId, left.validity.beginOrder)) ≤
      toLex (right.dataFileId, toLex (right.rowId, right.validity.beginOrder))

def listInlineFileDeletionRowsForTableAt (kv : CatalogKv) (tableId : TableId) (snapshotOrder : CatalogOrderId) :
    List InlineFileDeletionRow :=
  (listAllInlineFileDeletionRowsForTable kv tableId).filter fun row => row.validity.isVisibleAt snapshotOrder

/-- Deleted row ids by data file; both levels are ordered sets. -/
def listInlineFileDeletionsAt (kv : CatalogKv) (tableId : TableId) (snapshotOrder : CatalogOrderId) :
    List (DataFileId × List Nat) :=
  let rows := listInlineFileDeletionRowsForTableAt kv tableId snapshotOrder
  ((rows.map InlineFileDeletionRow.dataFileId).dedup.insertionSort (· ≤ ·)).map fun dataFileId =>
    (dataFileId,
      ((rows.filter fun row => row.dataFileId = dataFileId).map InlineFileDeletionRow.rowId).dedup.insertionSort
        (· ≤ ·))

/-- The group of one data file, when it has one. -/
def inlineDeletionsOf (grouped : List (DataFileId × List Nat)) (dataFileId : DataFileId) : List Nat :=
  (grouped.lookup dataFileId).getD []

def listInlineFileDeletionsBetween (kv : CatalogKv) (tableId : TableId) (startOrder endOrder : CatalogOrderId) :
    List InlineFileDeletionRow :=
  ((inlineFileDeletionRows kv tableId).filter fun row =>
    startOrder ≤ row.validity.beginOrder ∧ row.validity.beginOrder ≤ endOrder).insertionSort fun left right =>
      toLex (left.validity.beginOrder, toLex (left.dataFileId, left.rowId)) ≤
        toLex (right.validity.beginOrder, toLex (right.dataFileId, right.rowId))

def inlineFileDeletionRowsForFlush (kv : CatalogKv) (flush : InlineTableFlush) :
    CatalogResult (List InlineFileDeletionRow) :=
  match snapshotByRawSequence kv flush.flushSnapshotSequence with
  | none =>
    .error (.invalidMutation
      s!"inline file deletion flush references missing snapshot {flush.flushSnapshotSequence}")
  | some flushSnapshot => .ok (listInlineFileDeletionRowsForTableAt kv flush.tableId flushSnapshot.order)

/-- Give each row the end order and store it again under its own key. -/
def stageEndInlineFileDeletions (batch : KvBatch) (rows : List InlineFileDeletionRow) (endOrder : CatalogOrderId) :
    KvBatch :=
  rows.foldl (fun batch row => stageInlineFileDeletion batch (row.withEndOrder (some endOrder))) batch

def stageFlushInlineFileDeletions (kv : CatalogKv) (batch : KvBatch) (flush : InlineTableFlush)
    (endOrder : CatalogOrderId) : CatalogResult KvBatch := do
  let rows ← inlineFileDeletionRowsForFlush kv flush
  return stageEndInlineFileDeletions batch rows endOrder

/-- The batches agree outside inline deletions and what a flush records. -/
def KvBatch.ChangesInlineEnds (before after : KvBatch) : Prop :=
  ∃ deletions operations watermarks fileIds, after = { before with
    inlineFileDeletion := deletions, snapshotOperation := operations,
    inlineFlushWatermark := watermarks, conflictMaxFileId := fileIds }

theorem KvBatch.ChangesInlineEnds.refl (batch : KvBatch) : batch.ChangesInlineEnds batch :=
  ⟨_, _, _, _, rfl⟩

variable {first second third batch : KvBatch} {kv : CatalogKv} {now : Int} {rows begun : List InlineFileDeletionRow}
  {order : CatalogOrderId}

theorem KvBatch.ChangesInlineEnds.trans (left : first.ChangesInlineEnds second)
    (right : second.ChangesInlineEnds third) : first.ChangesInlineEnds third := by
  obtain ⟨_, _, _, _, rfl⟩ := left
  obtain ⟨_, _, _, _, rfl⟩ := right
  exact ⟨_, _, _, _, rfl⟩

/-- The batches agree outside inline deletions. -/
def KvBatch.ChangesInlineDeletions (before after : KvBatch) : Prop :=
  ∃ deletions, after = { before with inlineFileDeletion := deletions }

theorem KvBatch.ChangesInlineDeletions.trans
    (left : first.ChangesInlineDeletions second) (right : second.ChangesInlineDeletions third) :
    first.ChangesInlineDeletions third := by
  obtain ⟨_, rfl⟩ := left
  obtain ⟨_, rfl⟩ := right
  exact ⟨_, rfl⟩

theorem KvBatch.ChangesInlineDeletions.inlineEnds {before after : KvBatch}
    (changes : before.ChangesInlineDeletions after) : before.ChangesInlineEnds after := by
  obtain ⟨_, rfl⟩ := changes
  exact ⟨_, _, _, _, rfl⟩

theorem stageEndInlineFileDeletions_changes (batch : KvBatch) (rows : List InlineFileDeletionRow)
    (endOrder : CatalogOrderId) :
    batch.ChangesInlineDeletions (stageEndInlineFileDeletions batch rows endOrder) :=
  foldl_relates (fun _ => ⟨_, rfl⟩) (fun left right => left.trans right) (fun _ _ => ⟨_, rfl⟩) _ _

/-- New deletions begin at the commit's order, whatever window the caller passed. -/
def stageNewInlineFileDeletions (batch : KvBatch) (rows : List InlineFileDeletionRow) (order : CatalogOrderId) :
    KvBatch :=
  rows.foldl (fun batch row => stageInlineFileDeletion batch { row with validity := ⟨order, none⟩ }) batch

theorem stageNewInlineFileDeletions_changes (batch : KvBatch) (rows : List InlineFileDeletionRow)
    (order : CatalogOrderId) : batch.ChangesInlineDeletions (stageNewInlineFileDeletions batch rows order) :=
  foldl_relates (fun _ => ⟨_, rfl⟩) (fun left right => left.trans right) (fun _ _ => ⟨_, rfl⟩) _ _

def stageInlineFileDeletions (kv : CatalogKv) (now : Int) (rows : List InlineFileDeletionRow)
    (order : CatalogOrderId) : CatalogResult (List InlineFileDeletionRow × KvBatch) :=
  let snapshot := snapshotRowForNextSequence (latestSnapshot kv) order now
  let batch := stageNewInlineFileDeletions (stageSnapshot {} snapshot) rows order
  .ok (rows.map fun row => { row with validity := ⟨order, none⟩ },
    stageMaxFileIdWatermark kv batch snapshot.sequence)

theorem stageInlineFileDeletions_ok (staged : stageInlineFileDeletions kv now rows order = .ok (begun, batch)) :
    (rows.map fun row => { row with validity := ⟨order, none⟩ }) = begun ∧
      stageMaxFileIdWatermark kv
        (stageNewInlineFileDeletions (stageSnapshot {} (snapshotRowForNextSequence (latestSnapshot kv) order now)) rows
          order) (snapshotRowForNextSequence (latestSnapshot kv) order now).sequence = batch := by
  simp only [stageInlineFileDeletions, Except.ok.injEq, Prod.mk.injEq] at staged
  exact staged

theorem stageInlineFileDeletions_changes (staged : stageInlineFileDeletions kv now rows order = .ok (begun, batch)) :
    (stageSnapshot {} (snapshotRowForNextSequence (latestSnapshot kv) order now)).ChangesInlineEnds batch := by
  obtain ⟨_, rfl⟩ := stageInlineFileDeletions_ok staged
  obtain ⟨_, added⟩ := stageNewInlineFileDeletions_changes
    (stageSnapshot {} (snapshotRowForNextSequence (latestSnapshot kv) order now)) rows order
  rw [added]
  exact ⟨_, _, _, _, rfl⟩

def commitInlineFileDeletions (kv : CatalogKv) (now : Int) (rows : List InlineFileDeletionRow) :
    CatalogResult (List InlineFileDeletionRow) × CatalogKv :=
  if rows = [] then
    (.ok [], kv)
  else
    commitWith kv (stageInlineFileDeletions kv now rows)

end DucklakeCatalog
