import DucklakeCatalog.Inline.FileDeletes
import DucklakeCatalog.KeyedStore.Memo

/-! Inline file deletions answered from the caches of a process. One cache holds the rows of a table or of a file,
the other holds their groups at a snapshot order. -/
namespace DucklakeCatalog

open KeyedStore

/-- Part of every cache key; zero for requests without a read context. -/
abbrev ReadContextId := Nat

structure InlineDeletionContextKey where
  readContext : ReadContextId
  tableId : TableId
  dataFileId : Option DataFileId
  deriving DecidableEq

structure InlineDeletionSnapshotContextKey where
  readContext : ReadContextId
  tableId : TableId
  snapshotOrder : CatalogOrderId
  deriving DecidableEq

/-- Cached rows. No read looks at `source`, the store content they were loaded from. -/
structure InlineDeletionReadContext where
  rows : List InlineFileDeletionRow
  source : CatalogKv

structure InlineDeletionSnapshotContext where
  grouped : List (DataFileId × List Nat)
  source : CatalogKv

structure InlineDeletionCaches where
  contexts : Memo InlineDeletionContextKey InlineDeletionReadContext := .empty
  snapshots : Memo InlineDeletionSnapshotContextKey InlineDeletionSnapshotContext := .empty

/-! ## Loading and grouping -/

/-- Rows below the prefix of the table, or of one of its files, in the order of the sort. -/
def loadInlineDeletions (kv : CatalogKv) (tableId : TableId) (dataFileId : Option DataFileId) :
    List InlineFileDeletionRow :=
  ((kv.inlineFileDeletion.scan fun key =>
    key.tableId = tableId ∧ dataFileId.all (· = key.dataFileId)).map decodeInlineFileDeletion).insertionSort
      fun left right =>
        toLex (left.dataFileId, toLex (left.rowId, left.validity.beginOrder)) ≤
          toLex (right.dataFileId, toLex (right.rowId, right.validity.beginOrder))

def InlineDeletionReadContext.load (kv : CatalogKv) (tableId : TableId) (dataFileId : Option DataFileId) :
    InlineDeletionReadContext :=
  ⟨loadInlineDeletions kv tableId dataFileId, kv⟩

def InlineDeletionReadContext.rowsAt (context : InlineDeletionReadContext) (snapshotOrder : CatalogOrderId) :
    List InlineFileDeletionRow :=
  context.rows.filter fun row => row.validity.isVisibleAt snapshotOrder

def groupInlineFileDeletions (rows : List InlineFileDeletionRow) : List (DataFileId × List Nat) :=
  ((rows.map InlineFileDeletionRow.dataFileId).dedup.insertionSort (· ≤ ·)).map fun dataFileId =>
    (dataFileId,
      ((rows.filter fun row => row.dataFileId = dataFileId).map InlineFileDeletionRow.rowId).dedup.insertionSort
        (· ≤ ·))

/-- What a read without caches answers for the rows of a table or of a file. -/
def inlineDeletionRowsAt (kv : CatalogKv) (tableId : TableId) (dataFileId : Option DataFileId)
    (snapshotOrder : CatalogOrderId) : List InlineFileDeletionRow :=
  (InlineDeletionReadContext.load kv tableId dataFileId).rowsAt snapshotOrder

theorem loadInlineDeletions_table (kv : CatalogKv) (tableId : TableId) :
    loadInlineDeletions kv tableId none = listAllInlineFileDeletionRowsForTable kv tableId := by
  simp [loadInlineDeletions, listAllInlineFileDeletionRowsForTable, inlineFileDeletionRows]

theorem groupInlineFileDeletions_table (kv : CatalogKv) (tableId : TableId) (snapshotOrder : CatalogOrderId) :
    groupInlineFileDeletions (inlineDeletionRowsAt kv tableId none snapshotOrder) =
      listInlineFileDeletionsAt kv tableId snapshotOrder := by
  simp only [inlineDeletionRowsAt, InlineDeletionReadContext.load, InlineDeletionReadContext.rowsAt,
    loadInlineDeletions_table]
  rfl

/-! ## Reading through the caches -/

namespace InlineDeletionCaches

/-- `InlineDeletionReadContext::for_scope`; the store is read only when no entry is found. -/
def forScope (caches : InlineDeletionCaches) (kv : CatalogKv) (key : InlineDeletionContextKey) :
    InlineDeletionReadContext × InlineDeletionCaches :=
  let (context, contexts) := caches.contexts.findOrLoad key (.load kv key.tableId key.dataFileId)
  (context, { caches with contexts })

/-- The group of a snapshot order is kept under a key of its own, but filled from the rows of the table. -/
def inlineFileDeletionsAt (caches : InlineDeletionCaches) (kv : CatalogKv) (key : InlineDeletionSnapshotContextKey) :
    List (DataFileId × List Nat) × InlineDeletionCaches :=
  match caches.snapshots.find key with
  | some context => (context.grouped, caches)
  | none =>
    let (context, caches) := caches.forScope kv ⟨key.readContext, key.tableId, none⟩
    let grouped := groupInlineFileDeletions (context.rowsAt key.snapshotOrder)
    (grouped, { caches with snapshots := caches.snapshots.insert key ⟨grouped, context.source⟩ })

/-- The content behind the entry that answers for the scope. -/
def scopeSource (caches : InlineDeletionCaches) (key : InlineDeletionContextKey) : Option CatalogKv :=
  (caches.contexts.find key).map InlineDeletionReadContext.source

/-- The content behind the entry that answers for the snapshot order: its own, or that of the table. -/
def snapshotSource (caches : InlineDeletionCaches) (key : InlineDeletionSnapshotContextKey) : Option CatalogKv :=
  match caches.snapshots.find key with
  | some context => some context.source
  | none => caches.scopeSource ⟨key.readContext, key.tableId, none⟩

/-- Each entry holds what its source showed when it was loaded. -/
structure Faithful (caches : InlineDeletionCaches) (Stored : CatalogKv → Prop) : Prop where
  contexts : caches.contexts.Holds fun key context =>
    Stored context.source ∧ context = .load context.source key.tableId key.dataFileId
  snapshots : caches.snapshots.Holds fun key context =>
    Stored context.source ∧ context.grouped = listInlineFileDeletionsAt context.source key.tableId key.snapshotOrder

variable {caches : InlineDeletionCaches} {Stored : CatalogKv → Prop}

theorem Faithful.empty (Stored : CatalogKv → Prop) : ({} : InlineDeletionCaches).Faithful Stored :=
  ⟨.empty _, .empty _⟩

section

variable (faithful : caches.Faithful Stored)

include faithful

theorem Faithful.mono {Wider : CatalogKv → Prop}
    (wider : ∀ kv, Stored kv → Wider kv) : caches.Faithful Wider where
  contexts := faithful.contexts.mono fun _ _ fits => ⟨wider _ fits.1, fits.2⟩
  snapshots := faithful.snapshots.mono fun _ _ fits => ⟨wider _ fits.1, fits.2⟩

theorem Faithful.retain (keepContext : InlineDeletionContextKey → Bool)
    (keepSnapshot : InlineDeletionSnapshotContextKey → Bool) :
    Faithful ⟨caches.contexts.retain keepContext, caches.snapshots.retain keepSnapshot⟩ Stored :=
  ⟨faithful.contexts.retain keepContext, faithful.snapshots.retain keepSnapshot⟩

/-- A read of rows keeps the caches faithful and answers from the content behind the entry. -/
theorem Faithful.forScope {kv : CatalogKv} (stored : Stored kv)
    (key : InlineDeletionContextKey) :
    (caches.forScope kv key).2.Faithful Stored ∧
      (caches.forScope kv key).1 = .load ((caches.scopeSource key).getD kv) key.tableId key.dataFileId ∧
      Stored (caches.forScope kv key).1.source := by
  obtain ⟨fits, holds⟩ := faithful.contexts.findOrLoad key (.load kv key.tableId key.dataFileId) ⟨stored, rfl⟩
  refine ⟨⟨holds, faithful.snapshots⟩, ?_, fits.1⟩
  simp only [InlineDeletionCaches.forScope, scopeSource, Memo.findOrLoad_fst]
  cases found : caches.contexts.find key with
  | none => rfl
  | some context => exact (faithful.contexts key context found).2

/-- So does a read of a snapshot order, on either level of the caches. -/
theorem Faithful.inlineFileDeletionsAt {kv : CatalogKv} (stored : Stored kv)
    (key : InlineDeletionSnapshotContextKey) :
    (caches.inlineFileDeletionsAt kv key).2.Faithful Stored ∧
      (caches.inlineFileDeletionsAt kv key).1 =
        listInlineFileDeletionsAt ((caches.snapshotSource key).getD kv) key.tableId key.snapshotOrder := by
  cases found : caches.snapshots.find key with
  | some context =>
    simp only [InlineDeletionCaches.inlineFileDeletionsAt, snapshotSource, found, Option.getD_some]
    exact ⟨faithful, (faithful.snapshots key context found).2⟩
  | none =>
    obtain ⟨kept, answered, source⟩ := faithful.forScope stored ⟨key.readContext, key.tableId, none⟩
    have grouped : groupInlineFileDeletions
          ((caches.forScope kv ⟨key.readContext, key.tableId, none⟩).1.rowsAt key.snapshotOrder) =
        listInlineFileDeletionsAt (caches.forScope kv ⟨key.readContext, key.tableId, none⟩).1.source key.tableId
          key.snapshotOrder := by
      rw [answered]
      exact groupInlineFileDeletions_table _ _ _
    simp only [InlineDeletionCaches.inlineFileDeletionsAt, snapshotSource, found]
    refine ⟨⟨kept.contexts, kept.snapshots.insert ⟨source, grouped⟩⟩, ?_⟩
    rw [grouped, answered]
    rfl

end

end InlineDeletionCaches

end DucklakeCatalog
