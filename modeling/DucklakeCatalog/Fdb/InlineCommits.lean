import DucklakeCatalog.Fdb.DataMutation

/-! Commits of inline rows that are not part of a data mutation. -/
namespace DucklakeCatalog.Fdb

open KeyedStore

structure InlineTableCommitContext where
  commitSnapshot : Option RawSnapshotSequence := none
  readSnapshot : Option RawSnapshotSequence := none
  commitMetadata : SnapshotCommitMetadata := {}
  deriving DecidableEq

/-- The store once a transaction has taken its order. -/
def FdbStore.commitAt (store : FdbStore) (order : CatalogOrderId) : FdbStore :=
  { store with kv := { store.kv with nextOrder := order } }

def commitInlineTableMutations (seen : FdbStore) (now : Int) (mutation : FdbInlineMutation)
    (context : InlineTableCommitContext) (store : FdbStore) : CatalogResult FdbStore := do
  let prepared ← prepareInlineTableMutation seen mutation context.commitSnapshot context.readSnapshot
  let order := store.commitOrder
  let snapshot := mutationSnapshot now order prepared.sequence context.commitMetadata
  let next ← stagePreparedInlineMutation order { store with kv := stageSnapshot store.kv snapshot } prepared
  return next.commitAt order

structure FdbInlineDeleteTarget where
  snapshot : SnapshotRow
  stageSnapshot : Bool

/-- A delete for a snapshot that exists already is recorded at that snapshot's order. -/
def fdbInlineDeleteTarget (seen : CatalogKv) (now : Int) (order : CatalogOrderId) (latest : SnapshotRow)
    (commitSnapshot : Option RawSnapshotSequence) : FdbInlineDeleteTarget :=
  match commitSnapshot.bind (snapshotByRawSequence seen) with
  | some snapshot => ⟨snapshot, false⟩
  | none => ⟨SnapshotRow.new order (saturatingAdd latest.sequence 1) now, true⟩

/-- Nothing is committed when none of the rows is live before the target sequence. -/
def commitDeleteInlineTableRows (seen : FdbStore) (now : Int) (delete : InlineTableDeletePayload)
    (commitSnapshot : Option RawSnapshotSequence) (store : FdbStore) : CatalogResult (Option FdbStore) :=
  if delete.rowIds = [] then .ok none
  else
    match latestSnapshot seen.kv with
    | none => .error (.notFound "snapshot")
    | some latest =>
      let target := fdbInlineDeleteTarget seen.kv now store.commitOrder latest commitSnapshot
      let prepared := prepareInlineDelete seen target.snapshot.sequence delete
      if prepared.rowIds = [] then .ok none
      else
        let staged := if target.stageSnapshot then
          { store with kv := stageSnapshot store.kv target.snapshot } else store
        .ok (some ((stageInlineDelete target.snapshot.order staged prepared).commitAt store.commitOrder))

/-! ## What a commit has done -/

section

variable {seen store next : FdbStore} {now : Int}

theorem commitDeleteInlineTableRows_ok {delete : InlineTableDeletePayload} {commitSnapshot : Option RawSnapshotSequence}
    (commits : commitDeleteInlineTableRows seen now delete commitSnapshot store = .ok (some next)) :
    ∃ latest, latestSnapshot seen.kv = some latest ∧ ∃ target,
      target = fdbInlineDeleteTarget seen.kv now store.commitOrder latest commitSnapshot ∧
        next = (stageInlineDelete target.snapshot.order
          (if target.stageSnapshot then { store with kv := stageSnapshot store.kv target.snapshot } else store)
          (prepareInlineDelete seen target.snapshot.sequence delete)).commitAt store.commitOrder := by
  unfold commitDeleteInlineTableRows at commits
  split at commits
  · cases commits
  · split at commits
    · cases commits
    · rename_i latest found
      dsimp only at commits
      split at commits
      · cases commits
      · exact ⟨latest, found, _, rfl, (Option.some.inj (Except.ok.inj commits)).symm⟩

theorem reserveFileIdRange_ok {first count : Nat} (reserves : reserveFileIdRange store count = .ok (first, next)) :
    ∃ watermark, next = { store with
      kv := { store.kv with conflictMaxFileId := watermark, nextOrder := store.commitOrder } } := by
  unfold reserveFileIdRange at reserves
  dsimp only at reserves
  split at reserves
  · cases reserves
  · exact ⟨_, (Prod.mk.inj (Except.ok.inj reserves)).2.symm⟩

end

end DucklakeCatalog.Fdb
