import DucklakeCatalog.Fdb.InlineRowIndexes
import DucklakeCatalog.Run.FdbHistory

/-! The live and the current inline rows over whole histories. A row is visible
when its latest insert has been neither deleted nor flushed. -/
namespace DucklakeCatalog.Fdb

open KeyedStore

/-- The rows of one table and schema that a flush materializes. -/
structure FlushedRows where
  tableId : TableId
  schemaId : SchemaId
  through : CatalogOrderId
  deriving DecidableEq

def FlushedRows.covers (flushed : FlushedRows) (key : InlineRowKey) (version : InlineRowVersion) : Bool :=
  key.tableId = flushed.tableId && key.schemaId = flushed.schemaId && version.1 ≤ flushed.through

/-- What a transaction does to inline rows: flushes first, then deletes, then inserts. -/
structure InlineRowChanges where
  flushed : List FlushedRows := []
  observed : List InlineRowKey := []
  deleted : List InlineRowKey := []
  inserted : List InlineRowKey := []
  sequence : RawSnapshotSequence := 0

/-- A flush of inline data at a snapshot covers what has begun by then. -/
def PreparedInlineFlush.flushedRows (seen : FdbStore) (prepared : PreparedInlineFlush) : Option FlushedRows :=
  if prepared.flush.flushInlineData then
    (snapshotByRawSequence seen.kv prepared.flush.flushSnapshotSequence).map fun snapshot =>
      ⟨prepared.flush.tableId, prepared.flush.schemaId, snapshot.order⟩
  else none

def PreparedInlineMutation.rowChanges (prepared : PreparedInlineMutation) : InlineRowChanges :=
  { deleted := prepared.deletedKeys, inserted := prepared.insertedKeys, sequence := prepared.sequence }

def PreparedDataMutation.rowChanges (seen : FdbStore) (prepared : PreparedDataMutation) : InlineRowChanges :=
  { prepared.inlineMutation.elim {} PreparedInlineMutation.rowChanges with
    flushed := prepared.inlineFlushes.filterMap (PreparedInlineFlush.flushedRows seen)
    observed := prepared.inlineFlushes.flatMap PreparedInlineFlush.observedKeys }

def MutationAttempt.prepared (attempt : MutationAttempt) : CatalogResult PreparedDataMutation := do
  prepareDataMutation attempt.seen (← attempt.reserved)

def deletedRowChanges (seen : FdbStore) (now : Int) (delete : InlineTableDeletePayload)
    (commitSnapshot : Option RawSnapshotSequence) (order : CatalogOrderId) : InlineRowChanges :=
  (latestSnapshot seen.kv).elim {} fun latest =>
    let target := fdbInlineDeleteTarget seen.kv now order latest commitSnapshot
    { deleted := (prepareInlineDelete seen target.snapshot.sequence delete).rowKeys }

/-- The changes of a commit at the given order. -/
def FdbCommit.rowChanges (order : CatalogOrderId) : FdbCommit → InlineRowChanges
  | .dataMutation attempt => attempt.prepared.toOption.elim {} (PreparedDataMutation.rowChanges attempt.seen)
  | .inlineRows seen _ mutation context =>
    (prepareInlineTableMutation seen mutation context.commitSnapshot context.readSnapshot).toOption.elim {}
      PreparedInlineMutation.rowChanges
  | .inlineDeletes seen now delete commitSnapshot => deletedRowChanges seen now delete commitSnapshot order
  | .fileIds _ => {}

/-- The latest insert of a row, unless it is deleted or flushed. -/
def InlineRowChanges.visibleAfter (changes : InlineRowChanges) (order : CatalogOrderId) (key : InlineRowKey)
    (visible : Option InlineRowVersion) : Option InlineRowVersion :=
  if key ∈ changes.inserted then some (order, changes.sequence)
  else if key ∈ changes.deleted then none
  else visible.filter fun version => !changes.flushed.any fun flushed => flushed.covers key version

def Moment.visibleAfter (moment : Moment) (key : InlineRowKey) (visible : Option InlineRowVersion) :
    Option InlineRowVersion :=
  moment.commit.elim visible fun commit =>
    (commit.rowChanges moment.store.lastOrder).visibleAfter moment.store.lastOrder key visible

/-- The inline rows that a history leaves visible, with the insert they come from. -/
def visibleInlineRow (history : FdbHistory) (key : InlineRowKey) : Option InlineRowVersion :=
  history.states.foldr (fun moment visible => moment.visibleAfter key visible) none

/-! ## What one commit does to the indexes -/

/-- What the indexes hold of a row after the changes. -/
def InlineRowChanges.indexedAfter (changes : InlineRowChanges) (order : CatalogOrderId) (key : InlineRowKey)
    (row : Option RawSnapshotSequence × Option InlineRowVersion) :
    Option RawSnapshotSequence × Option InlineRowVersion :=
  if key ∈ changes.inserted then (some changes.sequence, some (order, changes.sequence))
  else if key ∈ changes.deleted then (none, none)
  else (row.1, if key ∈ changes.observed then none else row.2)

variable {store next : FdbStore}
variable {attempt : MutationAttempt} {seen : FdbStore} {now : Int} {mutation : FdbInlineMutation}
  {delete : InlineTableDeletePayload} {commit : FdbCommit} {order : CatalogOrderId} {key : InlineRowKey}

theorem AppliedMutation.inlineRow (applied : AppliedMutation attempt store next) (key : InlineRowKey) :
    next.inlineRow key =
      (applied.prepared.rowChanges attempt.seen).indexedAfter store.commitOrder key (store.inlineRow key) := by
  obtain ⟨opening⟩ := applied.opening
  have flushed := stagePreparedInlineFlushes_inlineRow applied.flushes key
  have begun : opening.begun.inlineRow key = applied.flushed.inlineRow key := by
    rw [opening.begins]
    cases attempt.recoveryId with
    | none => rfl
    | some recoveryId => rfl
  have ended : next.inlineRow key = opening.inlined.inlineRow key :=
    (congrArg (fun state : FdbStore => state.inlineRow key) opening.ends).trans rfl
  have inlines := opening.inlines
  unfold InlineRowChanges.indexedAfter PreparedDataMutation.rowChanges
  rw [ended]
  cases found : applied.prepared.inlineMutation with
  | none =>
    rw [found] at inlines
    obtain same : opening.begun = opening.inlined := by simpa [stageOptionalInlineMutation] using inlines
    rw [← same, begun, flushed]
    simp [FdbStore.inlineRow]
  | some prepared =>
    rw [found] at inlines
    rw [stagePreparedInlineMutation_inlineRow inlines key, begun, flushed]
    rfl

variable {context : InlineTableCommitContext} {commitSnapshot : Option RawSnapshotSequence} {before after : FdbStore}
  {prepared : PreparedDataMutation} {sequence : RawSnapshotSequence}

theorem commitInlineTableMutations_inlineRow
    (commits : commitInlineTableMutations seen now mutation context store = .ok next) (key : InlineRowKey) :
    next.inlineRow key = ((FdbCommit.inlineRows seen now mutation context).rowChanges store.commitOrder).indexedAfter
      store.commitOrder key (store.inlineRow key) := by
  unfold commitInlineTableMutations at commits
  simp only [bind_eq_ok, pure_eq_ok] at commits
  obtain ⟨prepared, prepares, staged, stages, rfl⟩ := commits
  have indexed := stagePreparedInlineMutation_inlineRow stages key
  simp only [FdbCommit.rowChanges, prepares, Except.toOption, Option.elim_some]
  change staged.inlineRow key = _
  rw [indexed]
  simp [InlineRowChanges.indexedAfter, PreparedInlineMutation.rowChanges, FdbStore.inlineRow, FdbStore.currentVersion]

theorem commitDeleteInlineTableRows_inlineRow
    (commits : commitDeleteInlineTableRows seen now delete commitSnapshot store = .ok (some next)) (key : InlineRowKey) :
    next.inlineRow key = (deletedRowChanges seen now delete commitSnapshot store.commitOrder).indexedAfter
      store.commitOrder key (store.inlineRow key) := by
  obtain ⟨latest, found, target, rfl, rfl⟩ := commitDeleteInlineTableRows_ok commits
  refine (stageInlineDelete_inlineRow _ _ _ key).trans ?_
  simp only [deletedRowChanges, found, Option.elim_some, InlineRowChanges.indexedAfter, List.not_mem_nil, if_false]
  split
  · rfl
  · split <;> rfl

/-- Every commit changes the indexes as its preparation says. -/
theorem FdbCommit.Applies.inlineRow (applies : commit.Applies store next) (key : InlineRowKey) :
    next.inlineRow key = (commit.rowChanges store.commitOrder).indexedAfter store.commitOrder key (store.inlineRow key) := by
  cases commit with
  | dataMutation attempt =>
    obtain ⟨applied⟩ := transact_staged applies
    have prepared : attempt.prepared = .ok applied.prepared := by
      unfold MutationAttempt.prepared
      rw [applied.reserves]
      exact applied.prepares
    simp only [FdbCommit.rowChanges, prepared, Except.toOption, Option.elim_some]
    exact applied.inlineRow key
  | inlineRows seen now mutation context => exact commitInlineTableMutations_inlineRow applies key
  | inlineDeletes seen now delete commitSnapshot => exact commitDeleteInlineTableRows_inlineRow applies key
  | fileIds count =>
    obtain ⟨first, reserves⟩ := applies
    obtain ⟨_, rfl⟩ := reserveFileIdRange_ok reserves
    simp [FdbCommit.rowChanges, InlineRowChanges.indexedAfter, FdbStore.inlineRow, FdbStore.currentVersion]

/-! ## Snapshots of a commit -/

/-- A commit adds at most one snapshot, at its own order, and one with inline rows adds it. -/
structure AddsSnapshot (store next : FdbStore) : Prop where
  adds : ∃ snapshot : SnapshotRow, snapshot.order = store.commitOrder ∧
    next.kv.rawSnapshotRow = store.kv.rawSnapshotRow.insert snapshot.sequence snapshot ∧
    next.kv.latestSnapshotRow = store.kv.latestSnapshotRow.insert () snapshot

def SameSnapshots (before after : CatalogKv) : Prop :=
  after.rawSnapshotRow = before.rawSnapshotRow ∧ after.latestSnapshotRow = before.latestSnapshotRow

theorem SameSnapshots.trans {first second third : CatalogKv} (left : SameSnapshots first second)
    (right : SameSnapshots second third) : SameSnapshots first third :=
  ⟨right.1.trans left.1, right.2.trans left.2⟩

theorem WritesInlineRows.sameSnapshots (writes : WritesInlineRows before after) :
    SameSnapshots before.kv after.kv := by
  obtain ⟨_, _, _, _, _, _, _, _, _, _, _, _, rfl⟩ := writes
  exact ⟨rfl, rfl⟩

theorem WritesFlushes.sameSnapshots (writes : WritesFlushes before after) :
    SameSnapshots before.kv after.kv := by
  obtain ⟨_, _, _, _, _, _, rfl⟩ := writes
  exact ⟨rfl, rfl⟩

theorem WritesDataFiles.sameSnapshots {before after : CatalogKv} (writes : WritesDataFiles before after) :
    SameSnapshots before after := by
  obtain ⟨_, _, _, _, _, _, _, _, _, rfl⟩ := writes
  exact ⟨rfl, rfl⟩

theorem WritesDeleteFiles.sameSnapshots {before after : CatalogKv} (writes : WritesDeleteFiles before after) :
    SameSnapshots before after := by
  obtain ⟨_, _, _, _, _, _, _, rfl⟩ := writes
  exact ⟨rfl, rfl⟩

theorem FileStages.sameSnapshots {seen kv filed : CatalogKv} {plan : FdbMutationPlan}
    (stages : FileStages seen now order plan prepared kv filed) : SameSnapshots kv filed := by
  have appended := (stageDataFiles_writes stages.appends).sameSnapshots
  have described : SameSnapshots stages.appended stages.described := by
    obtain ⟨_, _, _, _, _, _, same⟩ := stages.describes
    rw [same]
    exact ⟨rfl, rfl⟩
  have deleted := (stageDeleteFiles_writes stages.deletes).sameSnapshots
  have noted : SameSnapshots stages.deleted stages.noted := by
    obtain ⟨_, _, same⟩ := stages.noted_eq
    rw [same]
    exact ⟨rfl, rfl⟩
  have dropped := (stageDroppedDataFiles_writes stages.drops).sameSnapshots
  have expired := stages.next_writes.sameSnapshots
  exact ((((appended.trans described).trans deleted).trans noted).trans dropped).trans expired

theorem AppliedMutation.addsSnapshot (applied : AppliedMutation attempt store next) :
    AddsSnapshot store next := by
  obtain ⟨opening⟩ := applied.opening
  have flushed := (stagePreparedInlineFlushes_writes applied.flushes).sameSnapshots
  have inlined := (stageOptionalInlineMutation_writes opening.inlines).sameSnapshots
  have opened : SameSnapshots opening.inlined.kv opening.opened := by
    obtain ⟨_, same⟩ := opening.opens
    rw [same]
    exact ⟨rfl, rfl⟩
  have ended : SameSnapshots opening.begun.kv next.kv := by
    have filed := (inlined.trans opened).trans opening.files.sameSnapshots
    exact ⟨(congrArg (fun state : FdbStore => state.kv.rawSnapshotRow) opening.ends).trans filed.1,
      (congrArg (fun state : FdbStore => state.kv.latestSnapshotRow) opening.ends).trans filed.2⟩
  refine ⟨mutationSnapshot attempt.now store.commitOrder applied.prepared.snapshotSequence applied.plan.commitMetadata,
    rfl, ?_, ?_⟩
  · rw [ended.1, opening.begins]
    simp [stageSnapshot, flushed.1]
  · rw [ended.2, opening.begins]
    simp [stageSnapshot, flushed.2]

/-- A commit without inline inserts may also leave the snapshots as they are. -/
theorem FdbCommit.Applies.snapshots (applies : commit.Applies store next) :
    AddsSnapshot store next ∨
      SameSnapshots store.kv next.kv ∧ (commit.rowChanges store.commitOrder).inserted = [] := by
  cases commit with
  | dataMutation attempt =>
    obtain ⟨applied⟩ := transact_staged applies
    exact Or.inl applied.addsSnapshot
  | inlineRows seen now mutation context =>
    left
    simp only [FdbCommit.Applies, commitInlineTableMutations, bind_eq_ok, pure_eq_ok] at applies
    obtain ⟨prepared, prepares, staged, stages, rfl⟩ := applies
    have inlined := (stagePreparedInlineMutation_writes stages).sameSnapshots
    exact ⟨_, rfl, inlined.1, inlined.2⟩
  | inlineDeletes seen now delete commitSnapshot =>
    have noInserts : ((FdbCommit.inlineDeletes seen now delete commitSnapshot).rowChanges
        store.commitOrder).inserted = [] := by
      simp only [FdbCommit.rowChanges, deletedRowChanges]
      cases latestSnapshot seen.kv with
      | none => rfl
      | some latest => rfl
    obtain ⟨latest, _, target, isTarget, rfl⟩ := commitDeleteInlineTableRows_ok applies
    have deleted := fun staged => (stageInlineDelete_writes target.snapshot.order staged
      (prepareInlineDelete seen target.snapshot.sequence delete)).sameSnapshots
    cases named : commitSnapshot.bind (snapshotByRawSequence seen.kv) with
    | none =>
      left
      simp only [isTarget, fdbInlineDeleteTarget, named] at deleted ⊢
      exact ⟨_, rfl, (deleted _).1, (deleted _).2⟩
    | some snapshot =>
      right
      simp only [isTarget, fdbInlineDeleteTarget, named] at deleted ⊢
      exact ⟨deleted _, noInserts⟩
  | fileIds count =>
    right
    obtain ⟨first, reserves⟩ := applies
    obtain ⟨_, rfl⟩ := reserveFileIdRange_ok reserves
    exact ⟨⟨rfl, rfl⟩, rfl⟩

/-! ## What a flush observes -/

theorem prepareInlineFlush_observes {flush : InlineTableFlush} {prepared : PreparedInlineFlush}
    (prepares : prepareInlineFlush seen flush = .ok prepared) (observed : key ∈ prepared.observedKeys) :
    ∃ flushed, prepared.flushedRows seen = some flushed ∧
      ∃ version, seen.currentVersion key = some version ∧ flushed.covers key version = true := by
  unfold prepareInlineFlush at prepares
  dsimp only at prepares
  split at prepares
  · simp at prepares
  · rename_i snapshot found
    split at prepares
    · rename_i flushesData
      simp only [bind_eq_ok, pure_eq_ok] at prepares
      obtain ⟨chunks, _, rfl⟩ := prepares
      simp only [PreparedInlineFlush.observedKeys, flushesData, if_true, List.mem_map, List.mem_filter,
        listInlineCurrentRows, decide_eq_true_eq] at observed
      obtain ⟨rowId, ⟨⟨_, row⟩, ⟨⟨⟨stored, value⟩, scanned, same⟩, begun⟩, rfl⟩, rfl⟩ := observed
      obtain ⟨rfl, rfl⟩ := Prod.mk.inj same
      rw [OrderedMap.mem_scan] at scanned
      obtain ⟨present, scope⟩ := scanned
      rw [Bool.and_eq_true, decide_eq_true_eq, decide_eq_true_eq] at scope
      have key : stored = ⟨flush.tableId, flush.schemaId, stored.rowId⟩ := by
        cases stored
        simp_all
      refine ⟨⟨flush.tableId, flush.schemaId, snapshot.order⟩, ?_, (value.beginOrder, value.beginSequence), ?_, ?_⟩
      · simp [PreparedInlineFlush.flushedRows, flushesData, found]
      · dsimp only
        rw [← key, FdbStore.currentVersion, present]
        rfl
      · simpa [FlushedRows.covers] using begun
    · rename_i keepsData
      simp only [Except.ok.injEq] at prepares
      subst prepares
      simp [PreparedInlineFlush.observedKeys, keepsData] at observed

/-- Only data mutations flush. -/
theorem FdbCommit.rowChanges_cases (commit : FdbCommit) (order : CatalogOrderId) :
    (∃ attempt prepared, commit = .dataMutation attempt ∧ attempt.prepared = .ok prepared ∧
        commit.rowChanges order = prepared.rowChanges attempt.seen) ∨
      (commit.rowChanges order).flushed = [] ∧ (commit.rowChanges order).observed = [] := by
  cases commit with
  | dataMutation attempt =>
    cases prepares : attempt.prepared with
    | error failure => exact Or.inr (by simp [FdbCommit.rowChanges, prepares, Except.toOption])
    | ok prepared => exact Or.inl ⟨attempt, prepared, rfl, prepares, by simp [FdbCommit.rowChanges, prepares, Except.toOption]⟩
  | inlineRows seen now mutation context =>
    right
    simp only [FdbCommit.rowChanges]
    generalize prepareInlineTableMutation seen mutation context.commitSnapshot context.readSnapshot = outcome
    cases outcome with
    | error failure
    | ok prepared => exact ⟨rfl, rfl⟩
  | inlineDeletes seen now delete commitSnapshot =>
    right
    simp only [FdbCommit.rowChanges, deletedRowChanges]
    generalize latestSnapshot seen.kv = latest
    cases latest with
    | none
    | some latest => exact ⟨rfl, rfl⟩
  | fileIds count => exact Or.inr ⟨rfl, rfl⟩

theorem MutationAttempt.prepared_flushes (prepares : attempt.prepared = .ok prepared) :
    ∀ flush ∈ prepared.inlineFlushes, ∃ requested, prepareInlineFlush attempt.seen requested = .ok flush := by
  intro flush member
  simp only [MutationAttempt.prepared, bind_eq_ok] at prepares
  obtain ⟨plan, _, prepares⟩ := prepares
  simp only [prepareDataMutation, bind_eq_ok, pure_eq_ok] at prepares
  obtain ⟨_, _, _, _, _, _, flushes, prepares, _, _, rfl⟩ := prepares
  obtain ⟨requested, _, prepares⟩ := mapM_source prepares member
  exact ⟨requested, prepares⟩

/-- Every row whose current entry a commit clears was current in the state it read, and is flushed by it. -/
theorem FdbCommit.observes (observed : key ∈ (commit.rowChanges order).observed) :
    ∃ seen, commit.seen = some seen ∧ ∃ flushed ∈ (commit.rowChanges order).flushed,
      ∃ version, seen.currentVersion key = some version ∧ flushed.covers key version = true := by
  rcases commit.rowChanges_cases order with ⟨attempt, prepared, rfl, prepares, same⟩ | ⟨_, none⟩
  · refine ⟨attempt.seen, rfl, ?_⟩
    rw [same] at observed ⊢
    obtain ⟨flush, member, observed⟩ := List.mem_flatMap.mp observed
    obtain ⟨requested, prepares⟩ := attempt.prepared_flushes prepares flush member
    obtain ⟨flushed, found, version⟩ := prepareInlineFlush_observes prepares observed
    exact ⟨flushed, List.mem_filterMap.mpr ⟨flush, member, found⟩, version⟩
  · rw [none] at observed
    simp at observed

variable {flushed : FlushedRows}

/-- What a commit flushes reaches no further than the snapshot it names. -/
theorem FdbCommit.flushed_through (listed : flushed ∈ (commit.rowChanges order).flushed) :
    ∃ seen, commit.seen = some seen ∧
      ∃ sequence snapshot, snapshotByRawSequence seen.kv sequence = some snapshot ∧ flushed.through = snapshot.order := by
  rcases commit.rowChanges_cases order with ⟨attempt, prepared, rfl, prepares, same⟩ | ⟨none, _⟩
  · refine ⟨attempt.seen, rfl, ?_⟩
    rw [same] at listed
    obtain ⟨flush, _, found⟩ := List.mem_filterMap.mp listed
    unfold PreparedInlineFlush.flushedRows at found
    split at found
    · obtain ⟨snapshot, named, rfl⟩ := Option.map_eq_some_iff.mp found
      exact ⟨_, snapshot, named, rfl⟩
    · simp at found
  · rw [none] at listed
    simp at listed

/-! ## Runs -/

def FdbStore.SnapshotsBegun (store : FdbStore) : Prop :=
  ∀ sequence snapshot, snapshotByRawSequence store.kv sequence = some snapshot → snapshot.order ≤ store.lastOrder

/-- A catalog into which no inline row has been inserted yet. -/
structure Moment.WithoutInlineRows (moment : Moment) : Prop where
  opens : moment.commit = none
  live : moment.store.inlineLiveRow = .empty
  current : moment.store.inlineCurrentRow = .empty
  begun : moment.store.SnapshotsBegun

abbrev InlineRowRun (history : FdbHistory) : Prop := History.Reachable Moment.WithoutInlineRows FdbStep history

/-- A flush meets no live row: what it observed is gone when it commits, or the same commit deletes or inserts it. -/
def FlushesNoLiveRow (earlier : FdbHistory) (moment : Moment) : Prop :=
  ∀ commit seen flushed key version, moment.commit = some commit → commit.seen = some seen →
    flushed ∈ (commit.rowChanges moment.store.lastOrder).flushed → seen.currentVersion key = some version →
    flushed.covers key version = true →
    key ∈ (commit.rowChanges moment.store.lastOrder).deleted ∨
      key ∈ (commit.rowChanges moment.store.lastOrder).inserted ∨
      earlier.current.store.inlineLiveRow.get? key = none

variable {history : FdbHistory}

theorem InlineRowRun.snapshotsBegun (run : InlineRowRun history) :
    ∀ moment ∈ history.states, moment.store.SnapshotsBegun := by
  refine run.invariant (fun moment => moment.store.SnapshotsBegun) (fun moment start => start.begun) ?_
  rintro history moment begun ⟨commit, _, _, applies⟩ sequence snapshot found
  have before := begun history.current history.current_mem
  have later : history.current.store.lastOrder ≤ moment.store.lastOrder := by
    rw [applies.lastOrder]
    exact Nat.le_succ _
  unfold snapshotByRawSequence at found
  rcases applies.snapshots with ⟨added, order, raw, _⟩ | ⟨same, _⟩
  · rw [raw, OrderedMap.get?_insert] at found
    split at found
    · obtain rfl := Option.some.inj found
      rw [order, applies.lastOrder]
      exact Nat.le_refl _
    · exact Nat.le_trans (before sequence snapshot found) later
  · rw [same.1] at found
    exact Nat.le_trans (before sequence snapshot found) later

/-- A current row that had begun by an earlier state was the same row there. -/
def CurrentSince (earlier later : Moment) : Prop :=
  earlier.store.lastOrder ≤ later.store.lastOrder ∧
    ∀ key version, later.store.currentVersion key = some version → version.1 ≤ earlier.store.lastOrder →
      earlier.store.currentVersion key = some version

theorem FdbCommit.Applies.currentSince {earlier later : Moment}
    (applies : commit.Applies earlier.store later.store) : CurrentSince earlier later := by
  refine ⟨by rw [applies.lastOrder]; exact Nat.le_succ _, ?_⟩
  intro key version current begun
  have indexed := congrArg Prod.snd (applies.inlineRow key)
  simp only [InlineRowChanges.indexedAfter, FdbStore.inlineRow] at indexed
  rw [current] at indexed
  split at indexed
  · obtain rfl := Option.some.inj indexed
    exact absurd begun (Nat.not_le_of_lt earlier.store.lastOrder_lt)
  · split at indexed
    · simp at indexed
    · split at indexed
      · simp at indexed
      · exact indexed.symm

theorem InlineRowRun.currentSince (run : InlineRowRun history) :
    ∀ moment ∈ history.states, CurrentSince moment history.current := by
  refine run.later CurrentSince (fun moment => ⟨Nat.le_refl _, fun _ _ current _ => current⟩) ?_ ?_
  · intro first second third left right
    refine ⟨Nat.le_trans left.1 right.1, ?_⟩
    intro key version current begun
    exact left.2 key version (right.2 key version current (Nat.le_trans begun left.1)) begun
  · rintro history moment _ ⟨commit, _, _, applies⟩
    exact applies.currentSince

/-- The indexes hold the visible rows, and a catalog with visible rows has a snapshot. -/
structure IndexesVisibleRows (history : FdbHistory) : Prop where
  live : ∀ key, history.current.store.inlineLiveRow.get? key = (visibleInlineRow history key).map Prod.snd
  current : ∀ key, history.current.store.currentVersion key = visibleInlineRow history key
  latest : ∀ key, (visibleInlineRow history key).isSome → (latestSnapshot history.current.store.kv).isSome

theorem visibleInlineRow_extend (history : FdbHistory) (moment : Moment) (key : InlineRowKey) :
    visibleInlineRow (history.extend moment) key = moment.visibleAfter key (visibleInlineRow history key) := rfl

/-- A row that a commit flushes and that is still current was so in the state the commit read. -/
theorem InlineRowRun.flushed_seen (run : InlineRowRun history)
    (reads : ∀ seen, commit.seen = some seen → seen ∈ FdbHistory.stores history)
    (listed : flushed ∈ (commit.rowChanges order).flushed) {version : InlineRowVersion}
    (current : history.current.store.currentVersion key = some version)
    (covered : flushed.covers key version = true) :
    ∃ seen, commit.seen = some seen ∧ seen.currentVersion key = some version := by
  obtain ⟨seen, sees, sequence, snapshot, found, through⟩ := commit.flushed_through listed
  obtain ⟨past, member, rfl⟩ := List.mem_map.mp (reads seen sees)
  have begun := run.snapshotsBegun past member sequence snapshot found
  have reached : version.1 ≤ past.store.lastOrder := by
    simp only [FlushedRows.covers, Bool.and_eq_true, decide_eq_true_eq] at covered
    exact Nat.le_trans covered.2 (through ▸ begun)
  exact ⟨past.store, sees, (run.currentSince past member).2 key version current reached⟩

theorem IndexesVisibleRows.step (indexes : IndexesVisibleRows history) (run : InlineRowRun history) {moment : Moment}
    (taken : FdbStep history moment) (flushes : FlushesNoLiveRow history moment) :
    IndexesVisibleRows (history.extend moment) := by
  obtain ⟨commit, commits, reads, applies⟩ := taken
  change commit.Applies history.current.store moment.store at applies
  have order : moment.store.lastOrder = history.current.store.commitOrder := applies.lastOrder
  have step : ∀ key, moment.store.inlineRow key =
      ((visibleInlineRow (history.extend moment) key).map Prod.snd, visibleInlineRow (history.extend moment) key) := by
    intro key
    have indexed := applies.inlineRow key
    rw [visibleInlineRow_extend, Moment.visibleAfter, commits, Option.elim_some, InlineRowChanges.visibleAfter]
    rw [indexed, order]
    unfold InlineRowChanges.indexedAfter
    have meets := flushes commit
    rw [order] at meets
    generalize changed : commit.rowChanges history.current.store.commitOrder = changes at meets ⊢
    by_cases inserted : key ∈ changes.inserted
    · simp [inserted]
    by_cases deleted : key ∈ changes.deleted
    · simp [inserted, deleted]
    simp only [inserted, deleted, if_false]
    have live := indexes.live key
    have current := indexes.current key
    unfold FdbStore.inlineRow
    rw [live, current]
    cases visible : visibleInlineRow history key with
    | none => simp
    | some version =>
      rw [visible] at live current
      -- a visible row is live, so no flush of this commit may have observed it
      have unseen : ∀ seen flushed found, commit.seen = some seen → flushed ∈ changes.flushed →
          seen.currentVersion key = some found → flushed.covers key found = true → False := by
        intro seen flushed found sees listed earlier covered
        rcases meets seen flushed key found commits sees listed earlier covered with gone | gone | gone
        · exact deleted gone
        · exact inserted gone
        · rw [live] at gone
          simp at gone
      have unobserved : key ∉ changes.observed := by
        intro observed
        rw [← changed] at observed
        obtain ⟨seen, sees, flushed, listed, found, earlier, covered⟩ := commit.observes observed
        exact unseen seen flushed found sees (changed ▸ listed) earlier covered
      have uncovered : (changes.flushed.any fun flushed => flushed.covers key version) = false := by
        rw [List.any_eq_false]
        intro flushed listed covered
        obtain ⟨seen, sees, earlier⟩ := run.flushed_seen reads (changed ▸ listed) current covered
        exact unseen seen flushed version sees listed earlier covered
      have kept : Option.filter (fun version => !changes.flushed.any fun flushed => flushed.covers key version)
          (some version) = some version := by
        simp only [Option.filter, uncovered, Bool.not_false, if_true]
      simp only [unobserved, if_false, kept]
  refine ⟨fun key => congrArg Prod.fst (step key), fun key => congrArg Prod.snd (step key), ?_⟩
  intro key visible
  rcases applies.snapshots with ⟨snapshot, _, _, latest⟩ | ⟨same, noInserts⟩
  · simp only [History.current_extend, latestSnapshot, latest, OrderedMap.get?_insert]
    simp
  · rw [visibleInlineRow_extend, Moment.visibleAfter, commits, Option.elim_some, order, InlineRowChanges.visibleAfter,
      noInserts] at visible
    simp only [List.not_mem_nil, if_false] at visible
    have before : (visibleInlineRow history key).isSome := by
      split at visible
      · simp at visible
      · obtain ⟨version, kept⟩ := Option.isSome_iff_exists.mp visible
        simp [(Option.filter_eq_some_iff.mp kept).1]
    simp only [History.current_extend, latestSnapshot, same.2]
    exact indexes.latest key before

theorem IndexesVisibleRows.start {moment : Moment} (without : moment.WithoutInlineRows) :
    IndexesVisibleRows (History.start moment) where
  live := by
    intro key
    simp [visibleInlineRow, History.start, History.states, Moment.visibleAfter, without.opens, without.live]
  current := by
    intro key
    simp [visibleInlineRow, History.start, History.states, Moment.visibleAfter, without.opens, without.current,
      FdbStore.currentVersion]
  latest := by
    intro key visible
    simp [visibleInlineRow, History.start, History.states, Moment.visibleAfter, without.opens] at visible

theorem InlineRowRun.indexesVisibleRows (run : InlineRowRun history)
    (flushes : ∀ earlier moment, history.Took earlier moment → FlushesNoLiveRow earlier moment) :
    IndexesVisibleRows history := by
  induction run with
  | start without => exact IndexesVisibleRows.start without
  | @step history moment run taken ih =>
    have before := ih fun earlier later took => flushes earlier later (History.took_extend.mpr (Or.inr took))
    exact before.step run taken (flushes history moment (History.took_extend.mpr (Or.inl ⟨rfl, rfl⟩)))

/-! ## Inserts and deletes against the indexes -/

theorem rejectExistingInlineRowIds_eq_ok {payloads : List PreparedInlinePayload}
    {deletes : List InlineTableDeletePayload} :
    rejectExistingInlineRowIds store payloads deletes = .ok () ↔
      ∀ key ∈ payloads.flatMap PreparedInlinePayload.rowKeys,
        key ∉ deletes.flatMap InlineTableDeletePayload.rowKeys → store.inlineLiveRow.get? key = none := by
  unfold rejectExistingInlineRowIds
  rw [forM_eq_ok_iff]
  refine forall₂_congr fun key _ => ?_
  by_cases replaced : key ∈ deletes.flatMap InlineTableDeletePayload.rowKeys
  · simp [replaced]
  · cases live : store.inlineLiveRow.get? key with
    | none => simp
    | some sequence => simp [replaced]

theorem mem_prepareInlineDelete {targetSequence : RawSnapshotSequence}
    :
    key ∈ (prepareInlineDelete store targetSequence delete).rowKeys ↔
      key ∈ delete.rowKeys ∧ ∃ sequence, store.inlineLiveRow.get? key = some sequence ∧ sequence < targetSequence := by
  simp only [PreparedInlineDelete.rowKeys, prepareInlineDelete, InlineTableDeletePayload.rowKeys, List.mem_map,
    List.mem_filter, List.mem_insertionSort, List.mem_dedup, Option.any_eq_true, decide_eq_true_eq]
  constructor
  · rintro ⟨rowId, ⟨listed, sequence, live, before⟩, rfl⟩
    exact ⟨⟨rowId, listed, rfl⟩, sequence, live, before⟩
  · rintro ⟨⟨rowId, listed, rfl⟩, sequence, live, before⟩
    exact ⟨rowId, ⟨listed, sequence, live, before⟩, rfl⟩

/-- The rows to delete are looked up on the state the delete commits on. -/
theorem commitDeleteInlineTableRows_takes {latest : SnapshotRow} (found : latestSnapshot store.kv = some latest)
    (listed : key ∈ delete.rowKeys) (live : store.inlineLiveRow.get? key = some sequence) (before : sequence <
      (fdbInlineDeleteTarget store.kv now store.commitOrder latest commitSnapshot).snapshot.sequence) :
    ∃ next, commitDeleteInlineTableRows store now delete commitSnapshot store = .ok (some next) ∧
      next.inlineRow key = (none, none) := by
  have member := mem_prepareInlineDelete.mpr ⟨listed, sequence, live, before⟩
  have nonempty : delete.rowIds ≠ [] := by
    intro empty
    simp [InlineTableDeletePayload.rowKeys, empty] at listed
  have some : (prepareInlineDelete store
      (fdbInlineDeleteTarget store.kv now store.commitOrder latest commitSnapshot).snapshot.sequence
      delete).rowIds ≠ [] := by
    intro empty
    simp [PreparedInlineDelete.rowKeys, empty] at member
  have commits : ∃ next, commitDeleteInlineTableRows store now delete commitSnapshot store = .ok (.some next) := by
    simp only [commitDeleteInlineTableRows, if_neg nonempty, found, if_neg some]
    exact ⟨_, rfl⟩
  obtain ⟨next, commits⟩ := commits
  refine ⟨next, commits, ?_⟩
  rw [commitDeleteInlineTableRows_inlineRow commits key]
  simp [deletedRowChanges, found, InlineRowChanges.indexedAfter, member]

theorem commitInlineTableMutations_takes
    (commits : commitInlineTableMutations store now mutation context store = .ok next)
    (asked : delete ∈ mutation.deletes) (listed : key ∈ delete.rowKeys)
    (live : store.inlineLiveRow.get? key = some sequence)
    (before : sequence < inlineCommitSequence (latestSnapshot store.kv) context.commitSnapshot) :
    next.inlineRow key = (none, none) ∨ ∃ inserted, next.currentVersion key = some (store.commitOrder, inserted) := by
  have indexed := commitInlineTableMutations_inlineRow commits key
  simp only [commitInlineTableMutations, bind_eq_ok] at commits
  obtain ⟨prepared, prepares, _⟩ := commits
  simp only [FdbCommit.rowChanges, prepares, Except.toOption, Option.elim_some, InlineRowChanges.indexedAfter,
    PreparedInlineMutation.rowChanges, PreparedInlineMutation.deletedKeys] at indexed
  simp only [prepareInlineTableMutation, bind_eq_ok, pure_eq_ok] at prepares
  obtain ⟨_, _, _, _, replacements, _, payloads, _, _, _, _, _, rfl⟩ := prepares
  have member : key ∈ (mutation.deletes.map (prepareInlineDelete store
      (inlineCommitSequence (latestSnapshot store.kv) context.commitSnapshot))).flatMap PreparedInlineDelete.rowKeys :=
    List.mem_flatMap.mpr ⟨_, List.mem_map_of_mem asked, mem_prepareInlineDelete.mpr ⟨listed, sequence, live, before⟩⟩
  rw [if_pos member] at indexed
  split at indexed
  · exact Or.inr ⟨_, congrArg Prod.snd indexed⟩
  · exact Or.inl indexed

/-- As long as no flush meets a live row, both indexes hold exactly the visible rows: inserts are rejected exactly
for them, and a delete at a later sequence removes the row it names. -/
theorem inlineRowIndexes_agree (run : InlineRowRun history)
    (flushes : ∀ earlier moment, history.Took earlier moment → FlushesNoLiveRow earlier moment) :
    (∀ key, ((history.current.store.inlineLiveRow.get? key).isSome ↔
          (history.current.store.inlineCurrentRow.get? key).isSome) ∧
        ((history.current.store.inlineLiveRow.get? key).isSome ↔ (visibleInlineRow history key).isSome)) ∧
      (∀ payloads deletes, rejectExistingInlineRowIds history.current.store payloads deletes = .ok () ↔
        ∀ key ∈ payloads.flatMap PreparedInlinePayload.rowKeys,
          key ∉ deletes.flatMap InlineTableDeletePayload.rowKeys → visibleInlineRow history key = none) ∧
      ∀ key version, visibleInlineRow history key = some version →
        ∃ latest, latestSnapshot history.current.store.kv = some latest ∧
          (∀ now delete commitSnapshot, key ∈ delete.rowKeys →
            version.2 < (fdbInlineDeleteTarget history.current.store.kv now history.current.store.commitOrder latest
              commitSnapshot).snapshot.sequence →
            ∃ next, commitDeleteInlineTableRows history.current.store now delete commitSnapshot history.current.store =
                .ok (some next) ∧ next.inlineRow key = (none, none)) ∧
          ∀ now mutation context next,
            commitInlineTableMutations history.current.store now mutation context history.current.store = .ok next →
            (∃ delete ∈ mutation.deletes, key ∈ delete.rowKeys) →
            version.2 < inlineCommitSequence (some latest) context.commitSnapshot →
            next.inlineRow key = (none, none) ∨
              ∃ inserted, next.currentVersion key = some (history.current.store.commitOrder, inserted) := by
  have indexes := run.indexesVisibleRows flushes
  refine ⟨?_, ?_, ?_⟩
  · intro key
    have live := indexes.live key
    have current := indexes.current key
    have sameLive : (history.current.store.inlineLiveRow.get? key).isSome = (visibleInlineRow history key).isSome := by
      rw [live, Option.isSome_map]
    have sameCurrent : (history.current.store.inlineCurrentRow.get? key).isSome =
        (visibleInlineRow history key).isSome := by
      rw [← current, FdbStore.currentVersion, Option.isSome_map]
    exact ⟨by rw [sameLive, sameCurrent], by rw [sameLive]⟩
  · intro payloads deletes
    rw [rejectExistingInlineRowIds_eq_ok]
    refine forall₃_congr fun key _ _ => ?_
    rw [indexes.live key, Option.map_eq_none_iff]
  · intro key version visible
    have live : history.current.store.inlineLiveRow.get? key = some version.2 := by
      rw [indexes.live key, visible]
      rfl
    obtain ⟨latest, found⟩ := Option.isSome_iff_exists.mp (indexes.latest key (by simp [visible]))
    refine ⟨latest, found, ?_, ?_⟩
    · intro now delete commitSnapshot listed before
      exact commitDeleteInlineTableRows_takes found listed live before
    · rintro now mutation context next commits ⟨delete, asked, listed⟩ before
      rw [← found] at before
      exact commitInlineTableMutations_takes commits asked listed live before

/-! ## An inline row and its flush -/

def FdbHistory.insertRows (history : FdbHistory) (mutation : FdbInlineMutation) : FdbHistory :=
  History.extend history
    ⟨(commitInlineTableMutations history.current.store 0 mutation {} history.current.store).toOption.getD {},
      some (.inlineRows history.current.store 0 mutation {})⟩

theorem InlineRowRun.insertRows (run : InlineRowRun history)
    (commits : (commitInlineTableMutations history.current.store 0 mutation {} history.current.store).toOption.isSome) :
    InlineRowRun (FdbHistory.insertRows history mutation) := by
  refine History.Reachable.step run ⟨.inlineRows history.current.store 0 mutation {}, rfl, ?_, ?_⟩
  · intro seen given
    obtain rfl : history.current.store = seen := by simpa [FdbCommit.seen] using given
    exact history.store_mem
  · change commitInlineTableMutations history.current.store 0 mutation {} history.current.store = .ok _
    revert commits
    generalize commitInlineTableMutations history.current.store 0 mutation {} history.current.store = outcome
    intro commits
    cases outcome with
    | error failure => cases commits
    | ok store => rfl

/-- An inline row inserted without a flush flushes nothing. -/
theorem flushesNoLiveRow_insertRows (history : FdbHistory) (mutation : FdbInlineMutation) :
    FlushesNoLiveRow history (FdbHistory.insertRows history mutation).current := by
  intro commit seen flushed key version commits _ listed _ _
  obtain rfl : FdbCommit.inlineRows history.current.store 0 mutation {} = commit :=
    Option.some.inj (show some _ = some _ from commits)
  rcases FdbCommit.rowChanges_cases (.inlineRows history.current.store 0 mutation {})
    (FdbHistory.insertRows history mutation).current.store.lastOrder with ⟨_, _, other, _⟩ | ⟨none, _⟩
  · exact absurd other (by simp)
  · rw [none] at listed
    simp at listed

def noteKey : InlineRowKey := ⟨1, 1, 7⟩

/-- One line that holds row 7. -/
def notePayload : InlineTablePayload := ⟨1, 1, [114, 111, 119, 9, 55, 9, 120, 10]⟩

def emptyNotes : FdbHistory :=
  History.start ⟨{ kv := { stageSnapshot {} (SnapshotRow.new 1 0 0) with nextOrder := 1 } }, none⟩

def noteInserted : FdbHistory := emptyNotes.insertRows { payloads := [notePayload] }

/-- The row is deleted and inserted again by one commit. -/
def noteReplaced : FdbHistory :=
  noteInserted.insertRows { payloads := [notePayload], deletes := [⟨1, 1, [7]⟩] }

/-- The row's table and schema are flushed at the snapshot that inserted it. -/
def noteFlushed : FdbHistory :=
  noteInserted.commit
    { plan := { mutation := { inlineFlushes := [⟨1, 1, 1, true⟩] } }, recoveryId := none
      seen := noteInserted.current.store }

theorem emptyNotes_run : InlineRowRun emptyNotes := by
  refine History.Reachable.start ⟨rfl, rfl, rfl, ?_⟩
  intro sequence snapshot found
  have only : ∀ snapshot, snapshotByRawSequence emptyNotes.current.store.kv sequence = some snapshot →
      snapshot = SnapshotRow.new 1 0 0 := by
    intro snapshot found
    simp only [snapshotByRawSequence, emptyNotes, History.start, stageSnapshot, OrderedMap.get?_insert] at found
    split at found
    · exact (Option.some.inj found).symm
    · simp at found
  rw [only snapshot found]
  exact Nat.le_refl 1

theorem noteInserted_run : InlineRowRun noteInserted := emptyNotes_run.insertRows (by decide +kernel)

theorem noteReplaced_run : InlineRowRun noteReplaced := noteInserted_run.insertRows (by decide +kernel)

theorem noteFlushed_run : InlineRowRun noteFlushed :=
  History.Reachable.step noteInserted_run (FdbStep.commit noteInserted.store_mem (by decide +kernel))

/-- The replaced row is live and current again, and known by its second insert. -/
theorem noteReplaced_indexes_agree :
    InlineRowRun noteReplaced ∧ visibleInlineRow noteReplaced noteKey = some (3, 2) ∧
      (noteReplaced.current.store.inlineLiveRow.get? noteKey).isSome ∧
      (noteReplaced.current.store.inlineCurrentRow.get? noteKey).isSome := by
  have agree := (inlineRowIndexes_agree noteReplaced_run (by
    intro earlier moment took
    rcases History.took_extend.mp took with ⟨rfl, rfl⟩ | took
    · exact flushesNoLiveRow_insertRows _ _
    · rcases History.took_extend.mp took with ⟨rfl, rfl⟩ | took
      · exact flushesNoLiveRow_insertRows _ _
      · exact absurd took (History.not_took_start _ _ _))).1 noteKey
  have visible : visibleInlineRow noteReplaced noteKey = some (3, 2) := by decide +kernel
  have live := agree.2.mpr (by simp [visible])
  exact ⟨noteReplaced_run, visible, live, agree.1.mp live⟩

/-- After the flush the row is no longer current, but still live: it cannot be inserted again. -/
theorem flush_leaves_row_live :
    ¬∀ history, InlineRowRun history → ∀ key,
      ((history.current.store.inlineLiveRow.get? key).isSome ↔
        (history.current.store.inlineCurrentRow.get? key).isSome) ∧
      ((history.current.store.inlineLiveRow.get? key).isSome ↔ (visibleInlineRow history key).isSome) := by
  intro agree
  have live : (noteFlushed.current.store.inlineLiveRow.get? noteKey).isSome = true := by decide +kernel
  have gone : (noteFlushed.current.store.inlineCurrentRow.get? noteKey).isSome = false := by decide +kernel
  have current := (agree noteFlushed noteFlushed_run noteKey).1.mp live
  exact Bool.false_ne_true (gone.symm.trans current)

end DucklakeCatalog.Fdb
