import DucklakeCatalog.Attempt.CreatedTableIds
import DucklakeCatalog.Run.FdbTableRaces
import DucklakeCatalog.Run.MetadataAttempts

/-! Commit attempts among the other clients that create, change, replace and drop
tables. Data files, inline payloads and row-id watermarks are stored under table
ids, so an id that comes back shows what its last table has left. -/
namespace DucklakeCatalog.Fdb

open KeyedStore

inductive CatalogAction where
  | metadata (attempt : MetadataAttempt) (read : MetadataStore) (commit : MetadataCommit)
  | tables (tableOperation : TableOperation) (commit : TableCommit)

structure CatalogMoment where
  store : MetadataStore
  action : Option CatalogAction := none

abbrev CatalogHistory := History CatalogMoment

def CatalogHistory.stores (history : CatalogHistory) : List MetadataStore := history.states.map CatalogMoment.store

/-- The action, prepared on earlier states, takes the store to the next one. -/
def CatalogAction.Applies (toLowercase : String → String) (earlier : List MetadataStore) (store next : MetadataStore) :
    CatalogAction → Prop
  | .metadata attempt read commit =>
    read ∈ earlier ∧ (∃ seen ∈ earlier, ∃ created,
      commitMetadataIntents toLowercase read seen attempt = .ok (some (commit, created))) ∧ next = commit.transact store
  | .tables tableOperation commit =>
    tableOperation.prepare = .ok (some commit) ∧
      (∀ seen ∈ tableOperation.reads, seen ∈ earlier.map MetadataStore.catalog) ∧
      ∃ catalog, commit.transact store.catalog = some catalog ∧ next = { store with catalog := catalog }

def CatalogStep (toLowercase : String → String) (history : CatalogHistory) (moment : CatalogMoment) : Prop :=
  ∃ action, moment.action = some action ∧
    action.Applies toLowercase (CatalogHistory.stores history) history.current.store moment.store

/-- Every interleaving of clients on any stored catalog. -/
abbrev CatalogRun (toLowercase : String → String) (history : CatalogHistory) : Prop :=
  History.Reachable (fun moment => moment.action = none) (CatalogStep toLowercase) history

/-- Some version of a table has been stored under the id. -/
def UsesTableId (store : MetadataStore) (tableId : TableId) : Prop :=
  ∃ order row, store.catalog.kv.tableObject.get? ⟨tableId, order⟩ = some row

/-! ## Used ids stay used -/

variable {key : TableObjectKey} {tableId : TableId} {toLowercase : String → String}

theorem TableWrite.apply_keeps (order : CatalogOrderId) (view : TableView) (write : TableWrite)
    (found : (view.objects.get? key).isSome) : ((write.apply order view).objects.get? key).isSome := by
  cases write with
  | create table => exact OrderedMap.get?_insert_isSome found
  | replace tableId previous next
  | rewrite previous next => exact OrderedMap.get?_insert_isSome (OrderedMap.get?_insert_isSome found)
  | drop table => exact OrderedMap.get?_insert_isSome found

theorem foldl_apply_keeps (order : CatalogOrderId) (writes : List TableWrite) {view : TableView}
    (found : (view.objects.get? key).isSome) :
    ((writes.foldl (TableWrite.apply order) view).objects.get? key).isSome :=
  List.foldlRecOn (motive := fun view : TableView => (view.objects.get? key).isSome) writes _ found
    fun view known write _ => write.apply_keeps order view known

theorem usesTableId_of_writes {store next : MetadataStore} {order : CatalogOrderId} {writes : List TableWrite}
    (written : next.catalog.tableView = writes.foldl (TableWrite.apply order) store.catalog.tableView)
    (uses : UsesTableId store tableId) : UsesTableId next tableId := by
  obtain ⟨begun, row, found⟩ := uses
  have known : (store.catalog.tableView.objects.get? ⟨tableId, begun⟩).isSome := Option.isSome_of_mem found
  have kept := foldl_apply_keeps order writes known
  rw [← written] at kept
  obtain ⟨stored, isStored⟩ := Option.isSome_iff_exists.mp kept
  exact ⟨begun, stored, isStored⟩

variable {history : CatalogHistory} {moment : CatalogMoment}

theorem CatalogStep.usesTableId (step : CatalogStep toLowercase history moment)
    (uses : UsesTableId history.current.store tableId) : UsesTableId moment.store tableId := by
  obtain ⟨action, _, applies⟩ := step
  cases action with
  | metadata attempt read commit =>
    obtain ⟨_, _, stored⟩ := applies
    rw [stored]
    exact usesTableId_of_writes (commit.transact_leaves history.current.store).tables uses
  | tables tableOperation commit =>
    obtain ⟨_, _, catalog, transacts, stored⟩ := applies
    rw [stored]
    exact usesTableId_of_writes (commit.transact_tableView transacts) uses

/-- An id that some state of a run has used is used in its newest state. -/
theorem CatalogRun.usesTableId (run : CatalogRun toLowercase history) (member : moment ∈ history.states)
    (uses : UsesTableId moment.store tableId) : UsesTableId history.current.store tableId := by
  refine run.later (fun earlier later => UsesTableId earlier.store tableId → UsesTableId later.store tableId) ?_ ?_ ?_
    moment member uses
  · exact fun _ used => used
  · exact fun first second third up further used => further (up used)
  · exact fun history moment _ step used => step.usesTableId used

/-! ## Created tables -/

/-- The id was a table's in an earlier state, or ReplaceTables of the attempt itself takes it. -/
def TakenBefore (history : CatalogHistory) (attempt : MetadataAttempt) (tableId : TableId) : Prop :=
  (∃ moment ∈ history.states, UsesTableId moment.store tableId) ∨
    tableId ∈ attempt.replacementTables.map TableRow.tableId

/-- Every id that a created table of the attempt has got is new, and no two of them are the same. -/
def CreatedIdsNew (history : CatalogHistory) (attempt : MetadataAttempt) (commit : MetadataCommit) : Prop :=
  (commit.createdTables.map TableRow.tableId).Nodup ∧
    ∀ table ∈ commit.createdTables, ¬TakenBefore history attempt table.tableId

/-- The ids an attempt asks for, against the tables of the snapshot it has read
and all that have been stored by the time it commits. -/
def RequestsNewIds (history : CatalogHistory) (attempt : MetadataAttempt) (read : MetadataStore) : Prop :=
  ∀ latest, latestSnapshot read.catalog.kv = some latest → TableIntentAssembler.FreshRequests
    (fun tableId => UsesTableId history.current.store tableId ∨
      tableId ∈ attempt.replacementTables.map TableRow.tableId)
    (.new read.catalog.kv latest.order) attempt.tableFacts

theorem commitMetadataIntents_createdTables {read seen : MetadataStore}
    {attempt : MetadataAttempt} {commit : MetadataCommit} {created : List CreatedTable}
    (accepted : commitMetadataIntents toLowercase read seen attempt = .ok (some (commit, created))) :
    ∃ latest facts, latestSnapshot read.catalog.kv = some latest ∧ attempt.Facts read.catalog.kv latest.order facts ∧
      commit.createdTables.map TableRow.tableId = facts.tables.createdIds := by
  unfold commitMetadataIntents at accepted
  split at accepted
  · cases accepted
  · simp only [bind_eq_ok, pure_eq_ok, Option.some.injEq, Prod.mk.injEq] at accepted
    obtain ⟨latest, loads, facts, assembled, parts, finished, _, _, prepared, prepares, rfl, _⟩ := accepted
    refine ⟨latest, facts, loadLatestSnapshot_ok loads, assembleFacts_facts assembled, ?_⟩
    obtain ⟨_, _, from_⟩ := prepareMetadataCommit_ok prepares
    rw [from_.createdTables]
    unfold TableIntentAssembler.intoCommitParts at finished
    simp only [bind_eq_ok, pure_eq_ok] at finished
    obtain ⟨_, _, _, _, _, _, rfl⟩ := finished
    rfl

/-- In every run, the tables that an attempt creates get new ids exactly when it
asks for new ones, one table after the other. -/
theorem createdTableIds_new_iff {toLowercase : String → String} {history : CatalogHistory}
    (run : CatalogRun toLowercase history) {earlier : CatalogHistory} {moment : CatalogMoment}
    (took : history.Took earlier moment) {attempt : MetadataAttempt} {read : MetadataStore} {commit : MetadataCommit}
    (isAttempt : moment.action = some (.metadata attempt read commit)) :
    CreatedIdsNew earlier attempt commit ↔ RequestsNewIds earlier attempt read := by
  obtain ⟨before, action, isAction, applies⟩ := run.took took
  obtain rfl := Option.some.inj (isAttempt.symm.trans isAction)
  obtain ⟨_, ⟨seen, _, created, accepted⟩, _⟩ := applies
  obtain ⟨latest, facts, isLatest, isFacts, ids⟩ := commitMetadataIntents_createdTables accepted
  have taken : ∀ tableId, TakenBefore earlier attempt tableId ↔
      UsesTableId earlier.current.store tableId ∨ tableId ∈ attempt.replacementTables.map TableRow.tableId := by
    intro tableId
    refine or_congr_left ⟨?_, fun uses => ⟨earlier.current, earlier.current_mem, uses⟩⟩
    rintro ⟨sooner, member, uses⟩
    exact CatalogRun.usesTableId before member uses
  have fresh := TableIntentAssembler.foldlM_apply_freshIds (fun tableId =>
    UsesTableId earlier.current.store tableId ∨ tableId ∈ attempt.replacementTables.map TableRow.tableId) isFacts.tables
  have start : TableIntentAssembler.FreshIds (fun tableId => UsesTableId earlier.current.store tableId ∨
      tableId ∈ attempt.replacementTables.map TableRow.tableId)
      (TableIntentAssembler.new read.catalog.kv latest.order).createdIds :=
    ⟨List.nodup_nil, fun id listed => absurd listed List.not_mem_nil⟩
  have created : CreatedIdsNew earlier attempt commit ↔ TableIntentAssembler.FreshIds (fun tableId =>
      UsesTableId earlier.current.store tableId ∨ tableId ∈ attempt.replacementTables.map TableRow.tableId)
      facts.tables.createdIds := by
    rw [CreatedIdsNew, TableIntentAssembler.FreshIds, ← ids]
    simp only [taken, List.mem_map, forall_exists_index, and_imp, forall_apply_eq_imp_iff₂]
  rw [created, fresh]
  constructor
  · rintro ⟨requests, _⟩ other isOther
    obtain rfl := Option.some.inj (isLatest.symm.trans isOther)
    exact requests
  · exact fun requests => ⟨requests latest isLatest, start⟩

/-- A client that commits on what it has just read. -/
def CatalogMoment.attempting (store : MetadataStore) (attempt : MetadataAttempt) : CatalogMoment :=
  match commitMetadataIntents String.toLower store store attempt with
  | .ok (some (commit, _)) => ⟨commit.transact store, some (.metadata attempt store commit)⟩
  | _ => ⟨store, none⟩

def CatalogMoment.operating (store : MetadataStore) (tableOperation : TableOperation) : CatalogMoment :=
  match tableOperation.prepare with
  | .ok (some commit) =>
    match commit.transact store.catalog with
    | some catalog => ⟨{ store with catalog := catalog }, some (.tables tableOperation commit)⟩
    | none => ⟨store, none⟩
  | _ => ⟨store, none⟩

theorem CatalogMoment.attempting_step (history : CatalogHistory) (attempt : MetadataAttempt)
    (commits : (CatalogMoment.attempting history.current.store attempt).action.isSome) :
    CatalogStep String.toLower history (.attempting history.current.store attempt) := by
  unfold attempting at commits ⊢
  have here : history.current.store ∈ CatalogHistory.stores history := List.mem_map_of_mem history.current_mem
  split at commits
  · rename_i commit created prepares
    exact ⟨_, rfl, here, ⟨_, here, created, prepares⟩, rfl⟩
  · cases commits

theorem CatalogMoment.operating_step (toLowercase : String → String) (history : CatalogHistory)
    (tableOperation : TableOperation) (reads : ∀ seen ∈ tableOperation.reads, seen = history.current.store.catalog)
    (commits : (CatalogMoment.operating history.current.store tableOperation).action.isSome) :
    CatalogStep toLowercase history (.operating history.current.store tableOperation) := by
  unfold operating at commits ⊢
  split at commits
  · rename_i commit prepares
    split at commits
    · rename_i catalog transacts
      refine ⟨_, rfl, prepares, ?_, catalog, transacts, rfl⟩
      intro seen member
      rw [reads seen member, CatalogHistory.stores, List.map_map]
      exact List.mem_map_of_mem history.current_mem
    · cases commits
  · cases commits

def ordersAttempt (tableId : TableId) (sequence : Nat) : MetadataAttempt where
  now := 1
  sequence := sequence
  intents := [.createTables [{ tableId := tableId, schemaId := 0, name := "orders", validity := ⟨autoOrder, none⟩ }]]

def createdMoment : CatalogMoment := .attempting bareStore (ordersAttempt 2 1)

def createdHistory : CatalogHistory := (History.start ⟨bareStore, none⟩).extend createdMoment

def dropOrders : TableOperation := .dropTables createdMoment.store.catalog 2 [2] none

def dropMoment : CatalogMoment := .operating createdMoment.store dropOrders

def recreatedMoment : CatalogMoment := .attempting dropMoment.store (ordersAttempt 2 3)

theorem createdHistory_run : CatalogRun String.toLower createdHistory :=
  History.Reachable.step (History.Reachable.start rfl)
    (CatalogMoment.attempting_step (History.start ⟨bareStore, none⟩) (ordersAttempt 2 1) (by decide +kernel))

theorem CatalogMoment.attempting_creates (store : MetadataStore) (attempt : MetadataAttempt) (tableIds : List TableId)
    (creates : (commitMetadataIntents String.toLower store store attempt).toOption.map (fun accepted =>
      accepted.map fun committed => committed.1.createdTables.map TableRow.tableId) = some (some tableIds)) :
    ∃ commit, (CatalogMoment.attempting store attempt).action = some (.metadata attempt store commit) ∧
      commit.createdTables.map TableRow.tableId = tableIds := by
  unfold attempting
  cases accepted : commitMetadataIntents String.toLower store store attempt with
  | error e => simp [accepted, Except.toOption] at creates
  | ok result =>
    cases result with
    | none => simp [accepted, Except.toOption] at creates
    | some committed =>
      refine ⟨committed.1, rfl, ?_⟩
      simpa [accepted, Except.toOption] using creates

/-- The first table of a catalog gets an id that no table has had. -/
theorem createdTableIds_new_orders : ∃ commit,
    createdMoment.action = some (.metadata (ordersAttempt 2 1) bareStore commit) ∧
      commit.createdTables.map TableRow.tableId = [2] ∧
      CreatedIdsNew (History.start ⟨bareStore, none⟩) (ordersAttempt 2 1) commit := by
  obtain ⟨commit, isAttempt, ids⟩ :=
    CatalogMoment.attempting_creates bareStore (ordersAttempt 2 1) [2] (by decide +kernel)
  have took : createdHistory.Took (History.start ⟨bareStore, none⟩) createdMoment :=
    History.took_extend.mpr (Or.inl ⟨rfl, rfl⟩)
  refine ⟨commit, isAttempt, ids, (createdTableIds_new_iff createdHistory_run took isAttempt).mpr ?_⟩
  intro latest isLatest
  have facts : (ordersAttempt 2 1).tableFacts =
      [.createTable { tableId := 2, schemaId := 0, name := "orders", validity := ⟨autoOrder, none⟩ }] := rfl
  have bare : latestSnapshot bareStore.catalog.kv = some (mutationSnapshot 0 1 0 {}) := by decide
  obtain rfl := Option.some.inj (isLatest.symm.trans bare)
  have current : (TableIntentAssembler.new bareStore.catalog.kv (mutationSnapshot 0 1 0 {}).order).currentIds = [] := by
    decide +kernel
  rw [facts]
  refine ⟨?_, fun _ _ => trivial⟩
  rintro table same
  obtain rfl := TableFact.createTable.inj same
  rw [TableIntentAssembler.FreshRequest, current, if_neg (by decide)]
  rintro (⟨order, row, found⟩ | replaced)
  · cases found
  · exact absurd replaced (by decide +kernel)

/-- A dropped table's id goes to the table that an old client creates. -/
theorem createdTableIds_reused : ¬∀ history, CatalogRun String.toLower history →
    ∀ earlier moment, history.Took earlier moment → ∀ attempt read commit,
      moment.action = some (.metadata attempt read commit) → CreatedIdsNew earlier attempt commit := by
  intro new
  have drops := CatalogMoment.operating_step String.toLower createdHistory dropOrders
    (by simp [dropOrders, TableOperation.reads, createdHistory]) (by decide +kernel)
  have recreates := CatalogMoment.attempting_step (createdHistory.extend dropMoment) (ordersAttempt 2 3) (by decide +kernel)
  have run := History.Reachable.step (History.Reachable.step createdHistory_run drops) recreates
  obtain ⟨commit, isAttempt, ids⟩ :=
    CatalogMoment.attempting_creates dropMoment.store (ordersAttempt 2 3) [2] (by decide +kernel)
  have fresh := (new _ run (createdHistory.extend dropMoment) recreatedMoment (History.took_extend.mpr (Or.inl ⟨rfl, rfl⟩))
    _ _ _ isAttempt).2
  have stored : (createdMoment.store.catalog.kv.tableObject.get? ⟨2, 2⟩).isSome := by decide +kernel
  have listed : 2 ∈ commit.createdTables.map TableRow.tableId := by
    rw [ids]
    exact List.mem_cons_self
  obtain ⟨table, member, same⟩ := List.mem_map.mp listed
  refine fresh table member (Or.inl ⟨createdMoment, ?_, ?_⟩)
  · exact List.mem_cons_of_mem _ List.mem_cons_self
  · obtain ⟨row, found⟩ := Option.isSome_iff_exists.mp stored
    exact ⟨2, row, same ▸ found⟩

end DucklakeCatalog.Fdb
