import DucklakeCatalog.KeyedStore.Fallible
import DucklakeCatalog.Kv.Store
import Mathlib.Data.List.Sort

namespace DucklakeCatalog

open KeyedStore

def SnapshotRow.new (order : CatalogOrderId) (sequence : RawSnapshotSequence) (now : Int) : SnapshotRow :=
  { order, sequence, createdAtMicros := now }

def stageSnapshot (batch : KvBatch) (snapshot : SnapshotRow) : KvBatch :=
  { batch with
    snapshot := batch.snapshot.put snapshot.order snapshot
    snapshotTimestamp := batch.snapshotTimestamp.put ⟨snapshot.createdAtMicros, snapshot.order⟩ snapshot
    latestSnapshotRow := batch.latestSnapshotRow.put () snapshot
    rawSnapshotRow := batch.rawSnapshotRow.put snapshot.sequence snapshot }

def stageConflictWatermarksInitialized (batch : KvBatch) : KvBatch :=
  { batch with
    conflictWatermarksInitialized := batch.conflictWatermarksInitialized.put () ()
    conflictMaxCatalogId := batch.conflictMaxCatalogId.put () 0 }

/-- Raise a stored maximum, counting the value already staged for the key. -/
def stageMaxU64 [LinearOrder K] (stored : OrderedMap K Nat) (staged : Staged K Nat) (key : K) (candidate : Nat) :
    Staged K Nat :=
  staged.putMax key ((stored.get? key).elim candidate fun current => max current candidate)

def stageMaxCatalogIdWatermark (kv : CatalogKv) (batch : KvBatch) (candidate : Nat) : KvBatch :=
  { batch with conflictMaxCatalogId := stageMaxU64 kv.conflictMaxCatalogId batch.conflictMaxCatalogId () candidate }

def stageMaxFileIdWatermark (kv : CatalogKv) (batch : KvBatch) (candidate : Nat) : KvBatch :=
  { batch with conflictMaxFileId := stageMaxU64 kv.conflictMaxFileId batch.conflictMaxFileId () candidate }

def loadTableNextRowId (kv : CatalogKv) (tableId : TableId) : Nat :=
  (kv.tableNextRowId.get? tableId).getD 0

def stageTableNextRowId (kv : CatalogKv) (batch : KvBatch) (tableId : TableId) (candidate : Nat) : KvBatch :=
  { batch with tableNextRowId := stageMaxU64 kv.tableNextRowId batch.tableNextRowId tableId candidate }

def initializeEmptyCatalog (kv : CatalogKv) (now : Int) : SnapshotRow × CatalogKv :=
  let row := SnapshotRow.new kv.generatedOrderId 0 now
  (row, kv.withGeneratedOrder.commit (stageConflictWatermarksInitialized (stageSnapshot {} row)))

def latestSnapshot (kv : CatalogKv) : Option SnapshotRow :=
  kv.latestSnapshotRow.get? ()

def snapshotRowForNextSequence (latest : Option SnapshotRow) (order : CatalogOrderId) (now : Int) : SnapshotRow :=
  SnapshotRow.new order (latest.elim 0 fun snapshot => snapshot.sequence + 1) now

def decodeTimestampSnapshot (entry : SnapshotTimestampKey × SnapshotRow) : CatalogResult SnapshotRow :=
  if entry.2.createdAtMicros ≠ entry.1.createdAtMicros then
    .error (.decode "snapshot timestamp index does not match its row")
  else
    .ok { entry.2 with order := entry.1.order }

/-- The retained snapshots: expiry only removes a snapshot from the timestamp index. -/
def listSnapshots (kv : CatalogKv) : CatalogResult (List SnapshotRow) := do
  let rows ← kv.snapshotTimestamp.entries.mapM decodeTimestampSnapshot
  return rows.insertionSort fun left right => left.order ≤ right.order

def snapshotByRawSequence (kv : CatalogKv) (rawSequence : RawSnapshotSequence) : Option SnapshotRow :=
  kv.rawSnapshotRow.get? rawSequence

def stageDeleteSnapshot (batch : KvBatch) (snapshot : SnapshotRow) : KvBatch :=
  { batch with
    snapshotTimestamp := batch.snapshotTimestamp.delete ⟨snapshot.createdAtMicros, snapshot.order⟩ }

def stageExpireSnapshots (latest : SnapshotRow) (snapshots : List SnapshotRow)
    (rawSequences : List RawSnapshotSequence) : CatalogResult (List SnapshotRow × KvBatch) :=
  rawSequences.foldlM
    (fun (expired, batch) rawSequence =>
      if rawSequence = latest.sequence then
        .error (.invalidMutation s!"cannot expire latest snapshot {latest.sequence}")
      else
        let sequenceSnapshots := snapshots.filter fun snapshot => snapshot.sequence = rawSequence
        .ok (expired ++ sequenceSnapshots, sequenceSnapshots.foldl stageDeleteSnapshot batch))
    ([], {})

def stageExpiredSnapshots (kv : CatalogKv) (rawSequences : List RawSnapshotSequence) :
    CatalogResult (List SnapshotRow × KvBatch) := do
  let latest ← (latestSnapshot kv).elim (.error (.notFound "snapshot")) .ok
  let snapshots ← listSnapshots kv
  stageExpireSnapshots latest snapshots rawSequences

/-- Expiry touches nothing but the timestamp index. -/
theorem stageExpiredSnapshots_changes {kv : CatalogKv} {rawSequences : List RawSnapshotSequence}
    {expired : List SnapshotRow} {batch : KvBatch}
    (staged : stageExpiredSnapshots kv rawSequences = .ok (expired, batch)) :
    ∃ timestamps, batch = { snapshotTimestamp := timestamps } := by
  unfold stageExpiredSnapshots at staged
  simp only [bind_eq_ok] at staged
  obtain ⟨latest, _, snapshots, _, staged⟩ := staged
  refine foldlM_invariant (fun state : List SnapshotRow × KvBatch =>
    ∃ timestamps, state.2 = { snapshotTimestamp := timestamps }) staged ⟨{}, rfl⟩ ?_
  intro state rawSequence next _ soFar taken
  dsimp only at taken
  split at taken
  · simp at taken
  · simp only [Except.ok.injEq] at taken
    subst taken
    generalize snapshots.filter _ = sequenceSnapshots
    induction sequenceSnapshots generalizing state with
    | nil => exact soFar
    | cons snapshot rest ih =>
      obtain ⟨timestamps, same⟩ := soFar
      exact ih (state.1, stageDeleteSnapshot state.2 snapshot) ⟨_, by rw [same]; rfl⟩

def expireSnapshots (kv : CatalogKv) (rawSequences : List RawSnapshotSequence) :
    CatalogResult (List SnapshotRow × CatalogKv) :=
  if rawSequences = [] then
    .ok ([], kv)
  else do
    let (expired, batch) ← stageExpiredSnapshots kv rawSequences
    return (expired, kv.commit batch)

/-- A commit draws its order first, so a rejected commit still uses the order up. -/
def commitWith (kv : CatalogKv) (stage : CatalogOrderId → CatalogResult (α × KvBatch)) :
    CatalogResult α × CatalogKv :=
  match stage kv.generatedOrderId with
  | .error failure => (.error failure, kv.withGeneratedOrder)
  | .ok (result, batch) => (.ok result, kv.withGeneratedOrder.commit batch)

theorem commitWith_cases (kv : CatalogKv) (stage : CatalogOrderId → CatalogResult (α × KvBatch)) :
    (∃ failure, commitWith kv stage = (.error failure, kv.withGeneratedOrder)) ∨
      ∃ result batch, stage kv.generatedOrderId = .ok (result, batch) ∧
        commitWith kv stage = (.ok result, kv.withGeneratedOrder.commit batch) := by
  unfold commitWith
  cases stage kv.generatedOrderId with
  | error failure => exact Or.inl ⟨failure, rfl⟩
  | ok staged => exact Or.inr ⟨staged.1, staged.2, rfl, rfl⟩

/-- An operation that never draws an order leaves the store as it is when it fails. -/
def keepOnError (kv : CatalogKv) (outcome : CatalogResult (α × CatalogKv)) : CatalogResult α × CatalogKv :=
  match outcome with
  | .error failure => (.error failure, kv)
  | .ok (result, next) => (.ok result, next)

end DucklakeCatalog
