import DucklakeCatalog.Fdb.TableOperations
import DucklakeCatalog.Run.FdbTableNames

/-! Clients that change table metadata at the same time. Each of them reads and
checks some state the catalog has been in; its transaction then only writes. -/
namespace DucklakeCatalog.Fdb

open KeyedStore

structure ClientMoment where
  store : FdbStore
  operation : Option TableOperation := none

abbrev ClientHistory := History ClientMoment

def ClientStep (history : ClientHistory) (moment : ClientMoment) : Prop :=
  ∃ operation commit, moment.operation = some operation ∧ operation.prepare = .ok (some commit) ∧
    (∀ seen ∈ operation.reads, seen ∈ history.states.map ClientMoment.store) ∧
    commit.transact history.current.store = some moment.store

/-- Every interleaving of clients on a catalog that starts without tables. -/
abbrev ClientRun (history : ClientHistory) : Prop :=
  History.Reachable (fun moment => moment.operation = none ∧ NoTables moment.store) ClientStep history

/-- The moment was reached by committing what the operation had prepared. -/
def ClientMoment.Commits (moment : ClientMoment) (operation : TableOperation) (commit : TableCommit) : Prop :=
  moment.operation = some operation ∧ operation.prepare = .ok (some commit)

/-- The row that each replacement or drop ends is the current one. -/
def ClientMoment.EndsCurrentRows (earlier : ClientHistory) (moment : ClientMoment) : Prop :=
  ∀ operation commit, moment.Commits operation commit → ∀ write ∈ commit.writes, ∀ previous,
    write.previous = some previous → earlier.current.store.kv.currentTableRow.get? write.tableId = some previous

/-- No two current tables of one schema have the same name, ignoring the case of ASCII letters. -/
def NamesUnique (store : FdbStore) : Prop :=
  ∀ left right leftRow rightRow, store.kv.currentTableRow.get? left = some leftRow →
    store.kv.currentTableRow.get? right = some rightRow → leftRow.schemaId = rightRow.schemaId →
    leftRow.name.toLower = rightRow.name.toLower → left = right

/-- Some client has committed the write after the state was read. -/
def WrittenSince (history : ClientHistory) (seen : FdbStore) (write : TableWrite) : Prop :=
  ∃ moment ∈ history.states, seen.lastOrder < moment.store.lastOrder ∧
    ∃ operation commit, moment.Commits operation commit ∧ write ∈ commit.writes

/-- Since its reads no other client has written a table the operation writes, or
given a table a name the operation takes. -/
def ClientMoment.Undisturbed (earlier : ClientHistory) (moment : ClientMoment) : Prop :=
  ∀ operation commit, moment.Commits operation commit → ∀ seen ∈ operation.reads, ∀ other,
    WrittenSince earlier seen other → ∀ write ∈ commit.writes, other.tableId ≠ write.tableId ∧
      ∀ name, write.takes = some name → ∀ table, other.written = some table → tableNameKey table ≠ name

/-- The operation lists its own writes in an order that works. -/
def ClientMoment.InOrder (moment : ClientMoment) : Prop :=
  ∀ operation commit, moment.Commits operation commit → commit.writes.Pairwise TableWrite.Precedes

/-! ## What one transaction leaves -/

variable {commit : TableCommit} {store seen : FdbStore} {write : TableWrite}

/-- A transaction commits a snapshot with its own order. -/
theorem TableCommit.transact_latest {next : FdbStore} (transacts : commit.transact store = some next) :
    next.lastOrder = store.commitOrder ∧
      ∃ snapshot, latestSnapshot next.kv = some snapshot ∧ snapshot.order = store.commitOrder := by
  obtain ⟨same, order⟩ := commit.transact_recorded transacts
  refine ⟨order, commit.snapshot store.commitOrder, ?_, ?_⟩
  · have latest := congrArg Recorded.latestSnapshotRow same
    exact (congrArg (OrderedMap.get? · ()) latest).trans (OrderedMap.get?_insert_self _ _ _)
  · cases commit <;> rfl

/-! ## Between a read and the commit -/

variable {history : ClientHistory} {moment : ClientMoment}

theorem ClientStep.lastOrder (step : ClientStep history moment) :
    moment.store.lastOrder = history.current.store.commitOrder := by
  obtain ⟨_, commit, _, _, _, transacts⟩ := step
  exact (commit.transact_latest transacts).1

theorem ClientRun.lastOrder_le (run : ClientRun history) (member : moment ∈ history.states) :
    moment.store.lastOrder ≤ history.current.store.lastOrder := by
  refine run.later (fun earlier later => earlier.store.lastOrder ≤ later.store.lastOrder) ?_ ?_ ?_ _ member
  · exact fun moment => Nat.le_refl _
  · exact fun first second third left right => Nat.le_trans left right
  · intro history moment _ step
    rw [step.lastOrder]
    exact Nat.le_succ _

theorem writtenSince_extend (written : WrittenSince history seen write) :
    WrittenSince (history.extend moment) seen write := by
  obtain ⟨sooner, member, after⟩ := written
  exact ⟨sooner, List.mem_cons_of_mem _ member, after⟩

/-- What a step writes, it writes after every state that was there to be read. -/
theorem ClientStep.writtenSince (run : ClientRun history)
    (known : seen ∈ history.states.map ClientMoment.store) (step : ClientStep history moment) {operation : TableOperation}
    (commits : moment.Commits operation commit)
    (listed : write ∈ commit.writes) : WrittenSince (history.extend moment) seen write := by
  obtain ⟨earlier, member, rfl⟩ := List.mem_map.mp known
  refine ⟨moment, List.mem_cons_self, ?_, operation, commit, commits, listed⟩
  rw [step.lastOrder]
  exact Nat.lt_succ_of_le (run.lastOrder_le member)

/-- A table that no write since a state is about still has its row of that state. -/
theorem ClientRun.row_since (run : ClientRun history)
    (known : seen ∈ history.states.map ClientMoment.store) {tableId : TableId}
    (untouched : ∀ write, WrittenSince history seen write → write.tableId ≠ tableId) :
    history.current.store.kv.currentTableRow.get? tableId = seen.kv.currentTableRow.get? tableId := by
  induction run with
  | @start state isInitial =>
    obtain rfl : seen = state.store := by simpa using known
    rfl
  | @step history moment earlier step ih =>
    rw [History.states_extend, List.map_cons, List.mem_cons] at known
    rcases known with rfl | before
    · rfl
    · have same := ih before fun write written => untouched write (writtenSince_extend written)
      refine Eq.trans ?_ same
      have writtenNow : ∀ operation commit, moment.Commits operation commit → ∀ write ∈ commit.writes,
          write.tableId ≠ tableId := fun operation commit commits write listed =>
        untouched write (step.writtenSince earlier before commits listed)
      obtain ⟨operation, commit, committed, prepares, _, transacts⟩ := step
      have view := commit.transact_tableView transacts
      have rows := congrArg (fun view : TableView => view.rows.get? tableId) view
      rcases foldl_apply_rows history.current.store.commitOrder commit.writes history.current.store.tableView tableId
        with ⟨_, kept⟩ | ⟨write, listed, here, _⟩
      · exact rows.trans kept
      · exact absurd here (writtenNow operation commit ⟨committed, prepares⟩ write listed)

/-- A name that no write since a state has given a table is only had by tables that had it then. -/
theorem ClientRun.name_since (run : ClientRun history)
    (known : seen ∈ history.states.map ClientMoment.store) {name : SchemaId ×ₗ String}
    (notGiven : ∀ write, WrittenSince history seen write → ∀ table, write.written = some table →
      tableNameKey table ≠ name) {tableId : TableId} {row : TableRow}
    (found : history.current.store.kv.currentTableRow.get? tableId = some row) (named : tableNameKey row = name) :
    ∃ stored, seen.kv.currentTableRow.get? tableId = some stored ∧ tableNameKey stored = name := by
  induction run generalizing row with
  | @start state isInitial =>
    obtain rfl : seen = state.store := by simpa using known
    exact ⟨row, found, named⟩
  | @step history moment earlier step ih =>
    rw [History.states_extend, List.map_cons, List.mem_cons] at known
    rcases known with rfl | before
    · exact ⟨row, found, named⟩
    · have givenNow : ∀ operation commit, moment.Commits operation commit → ∀ write ∈ commit.writes, ∀ table,
          write.written = some table → tableNameKey table ≠ name := fun operation commit commits write listed =>
        notGiven write (step.writtenSince earlier before commits listed)
      obtain ⟨operation, commit, committed, prepares, _, transacts⟩ := step
      have view := commit.transact_tableView transacts
      have rows := congrArg (fun view : TableView => view.rows.get? tableId) view
      rcases foldl_apply_rows history.current.store.commitOrder commit.writes history.current.store.tableView tableId
        with ⟨_, kept⟩ | ⟨write, listed, here, stored⟩
      · refine ih before (fun write written => notGiven write (writtenSince_extend written)) ?_ named
        exact (rows.trans kept).symm.trans found
      · obtain ⟨table, written, sameName⟩ := TableWrite.written_of_stored ((rows.trans stored).symm.trans found)
        exact absurd (sameName.symm.trans named)
          (givenNow operation commit ⟨committed, prepares⟩ write listed table written)

/-! ## Undisturbed operations -/

theorem TableWrite.Expected.later {rows later : OrderedMap TableId TableRow} {before : List TableWrite}
    (expected : write.Expected rows before) (same : later.get? write.tableId = rows.get? write.tableId)
    (names : ∀ name, write.takes = some name → ∀ other row, later.get? other = some row → tableNameKey row = name →
      ∃ stored, rows.get? other = some stored ∧ tableNameKey stored = name) : write.Expected later before where
  oneTable := expected.oneTable
  previous previous ends := same.trans (expected.previous previous ends)
  fresh table isCreate := by
    subst isCreate
    exact (expected.fresh table rfl).imp_left fun fresh => same.trans fresh
  free name takes other row found named := by
    obtain ⟨stored, wasThere, sameName⟩ := names name takes other row found named
    exact expected.free name takes other stored wasThere sameName
  apart := expected.apart
  again := expected.again

/-- Undisturbed since its reads, an operation finds what it has prepared for. -/
theorem ClientStep.expected (run : ClientRun history) (ready : ∀ sooner ∈ history.states, sooner.store.TablesReady)
    (step : ClientStep history moment) (undisturbed : moment.Undisturbed history) (inOrder : moment.InOrder)
    {operation : TableOperation} (commits : moment.Commits operation commit) :
    ExpectedInOrder history.current.store.kv.currentTableRow commit.writes := by
  obtain ⟨taken, _, committed, _, reads, _⟩ := step
  obtain rfl : operation = taken := Option.some.inj (commits.1.symm.trans committed)
  have readyAt : ∀ seen ∈ operation.reads, seen.TablesReady := by
    intro seen member
    obtain ⟨sooner, listed, rfl⟩ := List.mem_map.mp (reads seen member)
    exact ready sooner listed
  have rowsSince : ∀ seen ∈ operation.reads, ∀ write ∈ commit.writes,
      history.current.store.kv.currentTableRow.get? write.tableId = seen.kv.currentTableRow.get? write.tableId := by
    intro seen member write listed
    exact run.row_since (reads seen member) fun other written =>
      (undisturbed operation commit commits seen member other written write listed).1
  have carried : ∀ seen ∈ operation.reads, ExpectedInOrder seen.kv.currentTableRow commit.writes →
      ExpectedInOrder history.current.store.kv.currentTableRow commit.writes := by
    intro seen member expected before write after split
    have listed := mem_of_split split
    refine (expected before write after split).later (rowsSince seen member write listed) ?_
    intro name takes other row found named
    refine run.name_since (reads seen member) ?_ found named
    intro other written table leaves
    exact (undisturbed operation commit commits seen member other written write listed).2 name takes table leaves
  have precede := inOrder operation commit commits
  have prepares := commits.2
  cases operation with
  | createTables seen now tables commitRawSnapshot recoveryId =>
    have member : seen ∈ (TableOperation.createTables seen now tables commitRawSnapshot recoveryId).reads :=
      List.mem_singleton_self seen
    exact carried seen member (createTables_expected (readyAt seen member) prepares precede)
  | editTables seen now edit =>
    have member : seen ∈ (TableOperation.editTables seen now edit).reads := List.mem_singleton_self seen
    exact carried seen member (editTables_expected (readyAt seen member) prepares precede)
  | dropTables seen now tableIds commitRawSnapshot =>
    have member : seen ∈ (TableOperation.dropTables seen now tableIds commitRawSnapshot).reads :=
      List.mem_singleton_self seen
    exact carried seen member (dropTables_expected (readyAt seen member) prepares)
  | replaceTables seen now tableIds tables commitRawSnapshot recoveryId =>
    have member : seen ∈
        (TableOperation.replaceTables seen now tableIds tables commitRawSnapshot recoveryId).reads :=
      List.mem_singleton_self seen
    exact carried seen member (replaceTables_expected (readyAt seen member) prepares precede)
  | insertInlineRows read seen now requests deletes context =>
    have readMember : read ∈ (TableOperation.insertInlineRows read seen now requests deletes context).reads :=
      List.mem_cons_self
    have member : seen ∈ (TableOperation.insertInlineRows read seen now requests deletes context).reads :=
      List.mem_cons_of_mem _ (List.mem_singleton_self seen)
    refine carried seen member (insertInlineRows_expected (readyAt seen member) prepares ?_)
    intro write listed
    exact (rowsSince seen member write listed).symm.trans (rowsSince read readMember write listed)

theorem TableCommit.transact_ready {next : FdbStore} (ready : store.TablesReady)
    (expected : ExpectedInOrder store.kv.currentTableRow commit.writes) (transacts : commit.transact store = some next) :
    next.TablesReady := by
  obtain ⟨lastOrder, latest, isLatest, atOrder⟩ := commit.transact_latest transacts
  obtain ⟨reached, bound, sound⟩ := ready.sound.foldl_apply
    (Nat.le_of_lt store.lastOrder_lt) fun before write after split => (expected before write after split).fits
  rw [← commit.transact_tableView transacts] at sound
  have sound := sound.mono bound
  refine ⟨lastOrder ▸ sound, ?_, ?_⟩
  · intro snapshot found
    obtain rfl : latest = snapshot := Option.some.inj (isLatest.symm.trans found)
    exact atOrder ▸ sound
  · intro missing
    rw [isLatest] at missing
    cases missing

theorem NoTables.tablesReady (none : NoTables store) : store.TablesReady := by
  have sound : ∀ order, store.tableView.Sound order := by
    intro order
    refine ⟨none.coherent, ?_, ?_, ?_⟩
    · intro tableId row found
      have found : store.kv.currentTableRow.get? tableId = some row := found
      rw [none.currentTableRow] at found
      cases found
    · intro tableId beginOrder row found
      have found : store.kv.tableObject.get? ⟨tableId, beginOrder⟩ = some row := found
      rw [none.tableObject] at found
      cases found
    · intro tableId beginOrder row found
      have found : store.kv.tableVisibility.get? ⟨beginOrder, tableId⟩ = some row := found
      rw [none.tableVisibility] at found
      cases found
  refine ⟨sound _, fun snapshot _ => sound _, fun _ tableId => ?_⟩
  rw [none.currentTableRow]
  rfl

theorem ClientRun.ready (run : ClientRun history)
    (undisturbed : ∀ earlier moment, history.Took earlier moment → moment.Undisturbed earlier)
    (inOrder : ∀ earlier moment, history.Took earlier moment → moment.InOrder) :
    ∀ moment ∈ history.states, moment.store.TablesReady := by
  induction run with
  | start isInitial =>
    intro moment member
    rw [History.states_start, List.mem_singleton] at member
    exact member ▸ isInitial.2.tablesReady
  | @step history next earlier step ih =>
    have before := ih (fun sooner moment took => undisturbed sooner moment (History.took_extend.mpr (Or.inr took)))
      fun sooner moment took => inOrder sooner moment (History.took_extend.mpr (Or.inr took))
    intro moment member
    rcases List.mem_cons.mp member with rfl | known
    · have takes : (history.extend moment).Took history moment := History.took_extend.mpr (Or.inl ⟨rfl, rfl⟩)
      obtain ⟨operation, commit, committed, prepares, reads, transacts⟩ := step
      have expected := ClientStep.expected earlier before ⟨operation, commit, committed, prepares, reads, transacts⟩
        (undisturbed history moment takes) (inOrder history moment takes) ⟨committed, prepares⟩
      exact commit.transact_ready (before history.current history.current_mem) expected transacts
    · exact before moment known

theorem NamesUnique.of_coherent (coherent : store.tableView.Coherent) : NamesUnique store := by
  intro left right leftRow rightRow foundLeft foundRight sameSchema sameName
  exact coherent.unique foundLeft foundRight (tableNameKey_eq_iff.mpr ⟨sameSchema, sameName⟩)

theorem undisturbed_ddl_is_not_lost (run : ClientRun history)
    (undisturbed : ∀ earlier moment, history.Took earlier moment → moment.Undisturbed earlier)
    (inOrder : ∀ earlier moment, history.Took earlier moment → moment.InOrder) :
    (∀ earlier moment, history.Took earlier moment → moment.EndsCurrentRows earlier) ∧
      ∀ moment ∈ history.states, NamesUnique moment.store := by
  have ready := run.ready undisturbed inOrder
  refine ⟨?_, fun moment member => .of_coherent (ready moment member).sound.coherent⟩
  intro earlier moment took operation commit commits write listed previous ends
  obtain ⟨reached, step⟩ := run.took took
  have readyBefore : ∀ sooner ∈ earlier.states, sooner.store.TablesReady := by
    intro sooner member
    obtain ⟨later, states⟩ := took
    exact ready sooner (states ▸ List.mem_append_right _ (List.mem_cons_of_mem _ member))
  have expected := step.expected reached readyBefore (undisturbed earlier moment took) (inOrder earlier moment took)
    commits
  obtain ⟨before, after, split⟩ := List.append_of_mem listed
  exact (expected before write after split).previous previous ends

/-! ## Two clients that create the same table -/

def newShop : FdbStore := { kv := { stageSnapshot {} (SnapshotRow.new 1 0 0) with nextOrder := 1 } }

theorem newShop_noTables : NoTables newShop := ⟨rfl, rfl, rfl, rfl⟩

def otherOrdersTable : TableRow := { tableId := 2, uuid := "other", name := "Orders", validity := ⟨autoOrder, none⟩ }

/-- Both requests were checked against the new catalog. -/
def createOrders : TableOperation := .createTables newShop 0 [ordersTable] none (some 7)

def createOtherOrders : TableOperation := .createTables newShop 0 [otherOrdersTable] none (some 8)

def ordersStore : FdbStore := commitCreatedTables 0 1 (some 7) [ordersTable] newShop

def bothOrdersStore : FdbStore := commitCreatedTables 0 1 (some 8) [otherOrdersTable] ordersStore

def ordersHistory : ClientHistory := (History.start { store := newShop }).extend ⟨ordersStore, some createOrders⟩

theorem createOrders_prepare : createOrders.prepare = .ok (some (.created 0 1 (some 7) [ordersTable])) := rfl

theorem createOtherOrders_prepare :
    createOtherOrders.prepare = .ok (some (.created 0 1 (some 8) [otherOrdersTable])) := rfl

theorem ordersHistory_run : ClientRun ordersHistory := by
  refine .step (.start ⟨rfl, newShop_noTables⟩) ⟨createOrders, _, rfl, createOrders_prepare, ?_, rfl⟩
  intro seen member
  rw [List.mem_singleton.mp member]
  exact List.mem_singleton_self _

theorem racing_creates_share_name :
    ¬∀ history, ClientRun history →
      (∀ earlier moment, history.Took earlier moment → moment.EndsCurrentRows earlier) ∧
        ∀ moment ∈ history.states, NamesUnique moment.store := by
  intro always
  have run : ClientRun (ordersHistory.extend ⟨bothOrdersStore, some createOtherOrders⟩) := by
    refine .step ordersHistory_run ⟨createOtherOrders, _, rfl, createOtherOrders_prepare, ?_, rfl⟩
    intro seen member
    rw [List.mem_singleton.mp member]
    exact List.mem_cons_of_mem _ (List.mem_singleton_self _)
  have unique := (always _ run).2 ⟨bothOrdersStore, some createOtherOrders⟩ List.mem_cons_self
  have first : bothOrdersStore.kv.currentTableRow.get? 1 = some (storedTable 2 ordersTable) := by decide +kernel
  have second : bothOrdersStore.kv.currentTableRow.get? 2 = some (storedTable 3 otherOrdersTable) := by decide +kernel
  have same := unique 1 2 _ _ first second rfl (by decide +kernel)
  cases same

/-- The second client looks again before it takes another name. -/
def createReturns : TableOperation := .createTables ordersStore 0 [returnsTable] none (some 8)

def returnsStore : FdbStore := commitCreatedTables 0 2 (some 8) [returnsTable] ordersStore

def returnsHistory : ClientHistory := ordersHistory.extend ⟨returnsStore, some createReturns⟩

theorem createReturns_prepare : createReturns.prepare = .ok (some (.created 0 2 (some 8) [returnsTable])) := by
  have passes : rejectCurrentTableCreateConflicts ordersStore [returnsTable] = .ok () := by decide +kernel
  have checks : checkCreateTables ordersStore [returnsTable] (some 8) = .ok () := passes
  change createTables ordersStore 0 [returnsTable] none (some 8) = _
  unfold createTables
  rw [checks]
  rfl

theorem returnsHistory_run : ClientRun returnsHistory := by
  refine .step ordersHistory_run ⟨createReturns, _, rfl, createReturns_prepare, ?_, rfl⟩
  intro seen member
  rw [List.mem_singleton.mp member]
  exact List.mem_cons_self

/-- An operation that has read the newest state has not been disturbed. -/
theorem undisturbed_of_current (run : ClientRun history)
    (current : ∀ operation commit, moment.Commits operation commit → ∀ seen ∈ operation.reads,
      seen = history.current.store) : moment.Undisturbed history := by
  intro operation commit commits seen member other written
  obtain ⟨sooner, listed, after, _⟩ := written
  rw [current operation commit commits seen member] at after
  exact absurd (run.lastOrder_le listed) (Nat.not_le_of_lt after)

theorem returnsHistory_keeps_ddl :
    ClientRun returnsHistory ∧
      (∀ earlier moment, returnsHistory.Took earlier moment → moment.EndsCurrentRows earlier) ∧
      ∀ moment ∈ returnsHistory.states, NamesUnique moment.store := by
  refine ⟨returnsHistory_run, undisturbed_ddl_is_not_lost returnsHistory_run ?_ ?_⟩
  · intro earlier moment took
    refine undisturbed_of_current (returnsHistory_run.took took).1 ?_
    intro operation commit commits seen member
    rcases History.took_extend.mp took with ⟨rfl, rfl⟩ | took
    · obtain rfl := Option.some.inj commits.1
      exact List.mem_singleton.mp member
    · rcases History.took_extend.mp took with ⟨rfl, rfl⟩ | took
      · obtain rfl := Option.some.inj commits.1
        exact List.mem_singleton.mp member
      · exact absurd took (History.not_took_start _ _ _)
  · intro earlier moment took operation commit commits
    rcases History.took_extend.mp took with ⟨rfl, rfl⟩ | took
    · obtain rfl := Option.some.inj commits.1
      obtain rfl := Option.some.inj (Except.ok.inj (createReturns_prepare.symm.trans commits.2))
      exact List.pairwise_singleton _ _
    · rcases History.took_extend.mp took with ⟨rfl, rfl⟩ | took
      · obtain rfl := Option.some.inj commits.1
        obtain rfl := Option.some.inj (Except.ok.inj (createOrders_prepare.symm.trans commits.2))
        exact List.pairwise_singleton _ _
      · exact absurd took (History.not_took_start _ _ _)

end DucklakeCatalog.Fdb
