import DucklakeCatalog.Fdb.Applied
import DucklakeCatalog.Fdb.InlineCommits

/-! The live and the current index of inline rows. A live row is known by the
sequence that inserted it, a current one by its order as well. -/
namespace DucklakeCatalog.Fdb

open KeyedStore

/-- The order and the sequence at which an inline row was inserted. -/
abbrev InlineRowVersion := CatalogOrderId × RawSnapshotSequence

def FdbStore.currentVersion (store : FdbStore) (key : InlineRowKey) : Option InlineRowVersion :=
  (store.inlineCurrentRow.get? key).map fun row => (row.beginOrder, row.beginSequence)

/-- What the two indexes hold of a row. -/
def FdbStore.inlineRow (store : FdbStore) (key : InlineRowKey) : Option RawSnapshotSequence × Option InlineRowVersion :=
  (store.inlineLiveRow.get? key, store.currentVersion key)

def PreparedInlineDelete.rowKeys (delete : PreparedInlineDelete) : List InlineRowKey :=
  delete.rowIds.map fun rowId => ⟨delete.tableId, delete.schemaId, rowId⟩

def PreparedInlineMutation.deletedKeys (prepared : PreparedInlineMutation) : List InlineRowKey :=
  prepared.deletes.flatMap PreparedInlineDelete.rowKeys

def PreparedInlineMutation.insertedKeys (prepared : PreparedInlineMutation) : List InlineRowKey :=
  prepared.payloads.flatMap PreparedInlinePayload.rowKeys

/-- The rows whose current entry a flush clears. -/
def PreparedInlineFlush.observedKeys (prepared : PreparedInlineFlush) : List InlineRowKey :=
  if prepared.flush.flushInlineData then
    prepared.currentRowIds.map fun rowId => ⟨prepared.flush.tableId, prepared.flush.schemaId, rowId⟩
  else []

/-! ## Deletes and inserts -/

theorem stageDeletedInlineRow_inlineRow (order : CatalogOrderId) (store : FdbStore) (deleted key : InlineRowKey) :
    (stageDeletedInlineRow order store deleted).inlineRow key =
      if key ∈ [deleted] then (none, none) else store.inlineRow key := by
  unfold FdbStore.inlineRow FdbStore.currentVersion
  simp only [stageDeletedInlineRow, OrderedMap.get?_erase, List.mem_singleton]
  by_cases same : key = deleted
  · simp [same]
  · simp [same]

theorem stageInlineDelete_inlineRow (order : CatalogOrderId) (store : FdbStore) (delete : PreparedInlineDelete)
    (key : InlineRowKey) :
    (stageInlineDelete order store delete).inlineRow key =
      if key ∈ delete.rowKeys then (none, none) else store.inlineRow key := by
  unfold stageInlineDelete PreparedInlineDelete.rowKeys
  split
  · rename_i none
    simp [none]
  · rw [foldl_sets FdbStore.inlineRow (fun rowId => [⟨delete.tableId, delete.schemaId, rowId⟩]) (none, none)
      (fun store rowId key => stageDeletedInlineRow_inlineRow order store ⟨delete.tableId, delete.schemaId, rowId⟩ key)
      delete.rowIds _ key]
    simp only [← List.map_eq_flatMap]
    rfl

variable {order : CatalogOrderId} {store next : FdbStore}

theorem stageInsertedInlineRow_inlineRow {sequence : RawSnapshotSequence}
    {payload : PreparedInlinePayload} {inserted : InlineRowKey}
    (staged : stageInsertedInlineRow order sequence payload store inserted = .ok next) (key : InlineRowKey) :
    next.inlineRow key = if key ∈ [inserted] then (some sequence, some (order, sequence)) else store.inlineRow key := by
  unfold stageInsertedInlineRow at staged
  split at staged
  · simp at staged
  · simp only [Except.ok.injEq] at staged
    subst staged
    unfold FdbStore.inlineRow FdbStore.currentVersion
    simp only [OrderedMap.get?_insert, List.mem_singleton]
    by_cases same : key = inserted
    · simp [same]
    · simp [same]

theorem stageInlinePayload_inlineRow {sequence : RawSnapshotSequence}
    {payload : PreparedInlinePayload} (staged : stageInlinePayload order sequence store payload = .ok next)
    (key : InlineRowKey) :
    next.inlineRow key =
      if key ∈ payload.rowKeys then (some sequence, some (order, sequence)) else store.inlineRow key := by
  unfold stageInlinePayload at staged
  extract_lets _ chunked marked at staged
  have set := foldlM_sets FdbStore.inlineRow (fun inserted => [inserted]) (some sequence, some (order, sequence))
    (fun store inserted next taken => stageInsertedInlineRow_inlineRow taken) staged key
  rw [set, List.flatMap_singleton']
  rfl

theorem stagePreparedInlineMutation_inlineRow
    {prepared : PreparedInlineMutation} (staged : stagePreparedInlineMutation order store prepared = .ok next)
    (key : InlineRowKey) :
    next.inlineRow key =
      if key ∈ prepared.insertedKeys then (some prepared.sequence, some (order, prepared.sequence))
      else if key ∈ prepared.deletedKeys then (none, none)
      else store.inlineRow key := by
  unfold stagePreparedInlineMutation at staged
  extract_lets replaced deleted at staged
  rw [bind_eq_ok] at staged
  obtain ⟨inserted, inserts, staged⟩ := staged
  simp only [pure_eq_ok] at staged
  subst staged
  have insertion := foldlM_sets FdbStore.inlineRow PreparedInlinePayload.rowKeys
    (some prepared.sequence, some (order, prepared.sequence))
    (fun store payload next taken => stageInlinePayload_inlineRow taken) inserts key
  have deletion := foldl_sets FdbStore.inlineRow PreparedInlineDelete.rowKeys (none, none)
    (stageInlineDelete_inlineRow order) prepared.deletes replaced key
  change inserted.inlineRow key = _
  rw [insertion, deletion]
  rfl

/-! ## Flushes -/

theorem clearObservedCurrentRows_currentVersion (store : FdbStore) (prepared : PreparedInlineFlush)
    (key : InlineRowKey) :
    (clearObservedCurrentRows store prepared).currentVersion key =
      if key ∈ prepared.currentRowIds.map fun rowId => ⟨prepared.flush.tableId, prepared.flush.schemaId, rowId⟩
      then none else store.currentVersion key := by
  have erased : ∀ (rows : OrderedMap InlineRowKey InlineCurrentRow) (rowId : Nat) (key : InlineRowKey),
      (rows.erase ⟨prepared.flush.tableId, prepared.flush.schemaId, rowId⟩).get? key =
        if key ∈ [(⟨prepared.flush.tableId, prepared.flush.schemaId, rowId⟩ : InlineRowKey)] then none
        else rows.get? key := by
    intro rows rowId key
    by_cases same : key = ⟨prepared.flush.tableId, prepared.flush.schemaId, rowId⟩
    · simp [OrderedMap.get?_erase, same]
    · simp [OrderedMap.get?_erase, same]
  have cleared := foldl_sets OrderedMap.get? _ none erased prepared.currentRowIds store.inlineCurrentRow key
  unfold clearObservedCurrentRows FdbStore.currentVersion
  dsimp only
  rw [cleared, ← List.map_eq_flatMap]
  split
  · rfl
  · rfl

theorem stageInlineFlush_currentVersion (order : CatalogOrderId) (store : FdbStore) (prepared : PreparedInlineFlush)
    (key : InlineRowKey) :
    (stageInlineFlush order store prepared).currentVersion key =
      if key ∈ prepared.observedKeys then none else store.currentVersion key := by
  unfold stageInlineFlush PreparedInlineFlush.observedKeys
  cases prepared.flush.flushInlineData with
  | false => rfl
  | true => exact clearObservedCurrentRows_currentVersion _ prepared key

theorem stageFencedInlineFlush_currentVersion {state next : FdbStore × List TableId × Nat}
    {prepared : PreparedInlineFlush} (staged : stageFencedInlineFlush order state prepared = some next)
    (key : InlineRowKey) :
    next.1.currentVersion key = if key ∈ prepared.observedKeys then none else state.1.currentVersion key := by
  unfold stageFencedInlineFlush at staged
  rw [Option.map_eq_some_iff] at staged
  obtain ⟨fenced, fences, rfl⟩ := staged
  have same : fenced.inlineCurrentRow = state.1.inlineCurrentRow := by
    split at fences
    · simp only [Option.some.injEq] at fences
      rw [fences]
    · unfold stageInlineFlushFence at fences
      dsimp only at fences
      split at fences
      · simp at fences
      · simp only [Option.some.injEq] at fences
        rw [← fences]
  rw [stageInlineFlush_currentVersion]
  simp only [FdbStore.currentVersion, same]

/-- A flush clears current rows and leaves every live row in place. -/
theorem stagePreparedInlineFlushes_inlineRow {prepared : List PreparedInlineFlush} {items : Nat}
    (staged : stagePreparedInlineFlushes order store prepared = some (next, items)) (key : InlineRowKey) :
    next.inlineRow key = (store.inlineLiveRow.get? key,
      if key ∈ prepared.flatMap PreparedInlineFlush.observedKeys then none else store.currentVersion key) := by
  have live : next.inlineLiveRow = store.inlineLiveRow := by
    obtain ⟨_, _, _, _, _, _, rfl⟩ := stagePreparedInlineFlushes_writes staged
    rfl
  unfold stagePreparedInlineFlushes at staged
  rw [Option.map_eq_some_iff] at staged
  obtain ⟨finish, folded, same⟩ := staged
  obtain ⟨rfl, rfl⟩ := Prod.mk.inj same
  have current := foldlM_some_sets (fun state : FdbStore × List TableId × Nat => state.1.currentVersion)
    PreparedInlineFlush.observedKeys none
    (fun state prepared next taken => stageFencedInlineFlush_currentVersion taken) folded key
  dsimp only at current
  unfold FdbStore.inlineRow
  rw [live, current]

end DucklakeCatalog.Fdb
