import DucklakeCatalog.Fdb.Effects
import DucklakeCatalog.Fdb.InlineCommits
import DucklakeCatalog.KeyedStore.History

/-! Runs of the FoundationDB backend. Each commit prepares against some state
the store has been in and takes effect on the newest one. -/
namespace DucklakeCatalog.Fdb

open KeyedStore

/-- What a committed transaction carried. -/
inductive FdbCommit where
  | dataMutation (attempt : MutationAttempt)
  | inlineRows (seen : FdbStore) (now : Int) (mutation : FdbInlineMutation) (context : InlineTableCommitContext)
  | inlineDeletes (seen : FdbStore) (now : Int) (delete : InlineTableDeletePayload)
      (commitSnapshot : Option RawSnapshotSequence)
  | fileIds (count : Nat)

/-- The state a commit read before its transaction. -/
def FdbCommit.seen : FdbCommit → Option FdbStore
  | .dataMutation attempt => some attempt.seen
  | .inlineRows seen _ _ _ => some seen
  | .inlineDeletes seen _ _ _ => some seen
  | .fileIds _ => none

/-- The commit takes the store to the next one. -/
def FdbCommit.Applies (commit : FdbCommit) (store next : FdbStore) : Prop :=
  match commit with
  | .dataMutation attempt => attempt.transact store = .ok (.staged next)
  | .inlineRows seen now mutation context => commitInlineTableMutations seen now mutation context store = .ok next
  | .inlineDeletes seen now delete commitSnapshot =>
    commitDeleteInlineTableRows seen now delete commitSnapshot store = .ok (some next)
  | .fileIds count => ∃ first, reserveFileIdRange store count = .ok (first, next)

/-- A state of the store and the commit that led to it. -/
structure Moment where
  store : FdbStore
  commit : Option FdbCommit := none

abbrev FdbHistory := History Moment

def FdbHistory.stores (history : FdbHistory) : List FdbStore := history.states.map Moment.store

def FdbHistory.store (history : FdbHistory) : FdbStore := history.current.store

/-- One commit of some client on the newest state. -/
def FdbStep (history : FdbHistory) (moment : Moment) : Prop :=
  ∃ commit, moment.commit = some commit ∧ (∀ seen, commit.seen = some seen → seen ∈ FdbHistory.stores history) ∧
    commit.Applies (FdbHistory.store history) moment.store

/-- Every history that clients can produce from any stored catalog. -/
abbrev FdbRun (history : FdbHistory) : Prop := History.Reachable (fun moment => moment.commit = none) FdbStep history

theorem FdbHistory.store_mem (history : FdbHistory) : history.current.store ∈ FdbHistory.stores history :=
  List.mem_map_of_mem history.current_mem

variable {history : FdbHistory} {store next : FdbStore} {attempt : MutationAttempt}

theorem FdbHistory.mem_extend (member : store ∈ FdbHistory.stores history)
    (moment : Moment) : store ∈ FdbHistory.stores (history.extend moment) := by
  obtain ⟨earlier, listed, rfl⟩ := List.mem_map.mp member
  exact List.mem_map_of_mem (List.mem_cons_of_mem _ listed)

/-! ## What a commit leaves alone -/

/-- Everything but a data mutation leaves the files and their inline deletions alone. -/
structure LeavesFiles (store next : FdbStore) : Prop where
  files : SameFiles store.kv next.kv
  inlineFileDeletion : next.kv.inlineFileDeletion = store.kv.inlineFileDeletion
  commitAttempt : next.commitAttempt = store.commitAttempt
  lastOrder : next.lastOrder = store.commitOrder

theorem WritesInlineRows.leavesFiles {opened staged : FdbStore} (writes : WritesInlineRows opened staged)
    (files : SameFiles store.kv opened.kv) (deletions : opened.kv.inlineFileDeletion = store.kv.inlineFileDeletion)
    (attempts : opened.commitAttempt = store.commitAttempt) :
    LeavesFiles store (staged.commitAt store.commitOrder) where
  files := by
    have same := files.trans writes.sameFiles
    exact ⟨same.currentDataFile, same.dataFile, same.currentDeleteFile, same.deleteFile⟩
  inlineFileDeletion := writes.inlineFileDeletion.trans deletions
  commitAttempt := writes.commitAttempt.trans attempts
  lastOrder := rfl

theorem commitInlineTableMutations_leavesFiles {seen : FdbStore} {now : Int} {mutation : FdbInlineMutation}
    {context : InlineTableCommitContext} (commits : commitInlineTableMutations seen now mutation context store = .ok next) :
    LeavesFiles store next := by
  unfold commitInlineTableMutations at commits
  simp only [bind_eq_ok, pure_eq_ok] at commits
  obtain ⟨prepared, _, staged, stages, rfl⟩ := commits
  exact (stagePreparedInlineMutation_writes stages).leavesFiles ⟨rfl, rfl, rfl, rfl⟩ rfl rfl

theorem commitDeleteInlineTableRows_leavesFiles {seen : FdbStore} {now : Int}
    {delete : InlineTableDeletePayload} {commitSnapshot : Option RawSnapshotSequence}
    (commits : commitDeleteInlineTableRows seen now delete commitSnapshot store = .ok (some next)) :
    LeavesFiles store next := by
  obtain ⟨latest, _, target, _, rfl⟩ := commitDeleteInlineTableRows_ok commits
  refine (stageInlineDelete_writes _ _ _).leavesFiles ?_ ?_ ?_
  · split <;> exact ⟨rfl, rfl, rfl, rfl⟩
  · split <;> rfl
  · split <;> rfl

theorem reserveFileIdRange_leavesFiles {count first : Nat}
    (reserves : reserveFileIdRange store count = .ok (first, next)) : LeavesFiles store next := by
  obtain ⟨_, rfl⟩ := reserveFileIdRange_ok reserves
  exact ⟨⟨rfl, rfl, rfl, rfl⟩, rfl, rfl, rfl⟩

/-- A commit is an applied data mutation or leaves the files alone. -/
theorem FdbCommit.Applies.cases {commit : FdbCommit} (applies : commit.Applies store next) :
    (∃ attempt, commit = .dataMutation attempt ∧ Nonempty (AppliedMutation attempt store next)) ∨
      (∀ attempt, commit ≠ .dataMutation attempt) ∧ LeavesFiles store next := by
  cases commit with
  | dataMutation attempt => exact Or.inl ⟨attempt, rfl, transact_staged applies⟩
  | inlineRows seen now mutation context =>
    exact Or.inr ⟨by simp, commitInlineTableMutations_leavesFiles applies⟩
  | inlineDeletes seen now delete commitSnapshot =>
    exact Or.inr ⟨by simp, commitDeleteInlineTableRows_leavesFiles applies⟩
  | fileIds count =>
    obtain ⟨first, reserves⟩ := applies
    exact Or.inr ⟨by simp, reserveFileIdRange_leavesFiles reserves⟩

theorem FdbCommit.Applies.lastOrder {commit : FdbCommit} (applies : commit.Applies store next) :
    next.lastOrder = store.lastOrder + 1 := by
  rcases applies.cases with ⟨attempt, _, ⟨applied⟩⟩ | ⟨_, left⟩
  · exact applied.lastOrder
  · exact left.lastOrder

/-! ## Orders along a run -/

variable {moment : Moment}

/-- No state is later than the newest one. -/
theorem FdbRun.lastOrder_le (run : FdbRun history)
    (member : moment ∈ history.states) : moment.store.lastOrder ≤ history.current.store.lastOrder := by
  refine run.later (fun earlier later => earlier.store.lastOrder ≤ later.store.lastOrder) ?_ ?_ ?_ _ member
  · exact fun moment => Nat.le_refl _
  · exact fun first second third left right => Nat.le_trans left right
  · rintro history moment _ ⟨commit, _, _, applies⟩
    exact Nat.le_of_lt (applies.lastOrder ▸ Nat.lt_succ_self _)

/-- The data mutations that were committed after a given order, with the file ids they were given. -/
def CommittedAfter (history : FdbHistory) (order : CatalogOrderId) (plan : FdbMutationPlan) : Prop :=
  ∃ moment ∈ history.states, order < moment.store.lastOrder ∧
    ∃ attempt, moment.commit = some (.dataMutation attempt) ∧ attempt.reserved = .ok plan

theorem committedAfter_extend {order : CatalogOrderId} {plan : FdbMutationPlan}
    :
    CommittedAfter (history.extend moment) order plan ↔ CommittedAfter history order plan ∨
      order < moment.store.lastOrder ∧
        ∃ attempt, moment.commit = some (.dataMutation attempt) ∧ attempt.reserved = .ok plan := by
  constructor
  · rintro ⟨found, member, after⟩
    rw [History.states_extend, List.mem_cons] at member
    rcases member with rfl | earlier
    · exact Or.inr after
    · exact Or.inl ⟨found, earlier, after⟩
  · rintro (⟨found, member, after⟩ | after)
    · exact ⟨found, List.mem_cons_of_mem _ member, after⟩
    · exact ⟨moment, List.mem_cons_self, after⟩

/-- A step that commits after an order is one of the commits after it. -/
theorem AppliedMutation.committedAfter
    (applied : AppliedMutation attempt history.current.store moment.store) (run : FdbRun history)
    (commits : moment.commit = some (.dataMutation attempt)) {past : FdbStore}
    (before : past ∈ FdbHistory.stores history) :
    past.lastOrder < history.current.store.commitOrder ∧
      CommittedAfter (history.extend moment) past.lastOrder applied.plan := by
  obtain ⟨earlier, member, rfl⟩ := List.mem_map.mp before
  have later : earlier.store.lastOrder < history.current.store.commitOrder :=
    Nat.lt_succ_of_le (run.lastOrder_le member)
  refine ⟨later, committedAfter_extend.mpr (Or.inr ⟨?_, attempt, commits, applied.reserves⟩)⟩
  rw [applied.lastOrder]
  exact later

/-- Nothing has been committed after the newest state. -/
theorem not_committedAfter_current (run : FdbRun history) (plan : FdbMutationPlan) :
    ¬CommittedAfter history history.current.store.lastOrder plan := by
  rintro ⟨moment, member, after, _⟩
  exact absurd (run.lastOrder_le member) (Nat.not_le_of_lt after)

/-! ## Building runs -/

def StagedMutation.store? : CatalogResult StagedMutation → Option FdbStore
  | .ok (.staged store) => some store
  | _ => none

theorem StagedMutation.store?_eq_some {outcome : CatalogResult StagedMutation} {next : FdbStore}
    (staged : StagedMutation.store? outcome = some next) : outcome = .ok (.staged next) := by
  match outcome with
  | .ok (.staged store) => rw [Option.some.inj staged]

/-- The history after the attempt has committed. -/
def FdbHistory.commit (history : FdbHistory) (attempt : MutationAttempt) : FdbHistory :=
  History.extend history
    ⟨(StagedMutation.store? (attempt.transact history.current.store)).getD {}, some (.dataMutation attempt)⟩

theorem FdbStep.commit (seen : attempt.seen ∈ FdbHistory.stores history)
    (commits : (StagedMutation.store? (attempt.transact history.current.store)).isSome) :
    FdbStep history (FdbHistory.commit history attempt).current := by
  refine ⟨.dataMutation attempt, rfl, ?_, ?_⟩
  · intro state given
    obtain rfl : attempt.seen = state := by simpa [FdbCommit.seen] using given
    exact seen
  · obtain ⟨staged, isStaged⟩ := Option.isSome_iff_exists.mp commits
    change attempt.transact history.current.store = .ok (.staged _)
    rw [FdbHistory.commit, isStaged]
    exact StagedMutation.store?_eq_some isStaged

theorem FdbRun.commit (run : FdbRun history) (seen : attempt.seen ∈ FdbHistory.stores history)
    (commits : (StagedMutation.store? (attempt.transact history.current.store)).isSome) :
    FdbRun (FdbHistory.commit history attempt) :=
  History.Reachable.step run (FdbStep.commit seen commits)

end DucklakeCatalog.Fdb
