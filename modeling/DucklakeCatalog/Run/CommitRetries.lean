import DucklakeCatalog.Run.FdbDeleters
import DucklakeCatalog.Run.FileIds
import DucklakeCatalog.Run.SharedStores

/-! Calls that commit a data mutation and retry it, between the commits of other
clients. FoundationDB may leave open whether a commit has landed. -/
namespace DucklakeCatalog.Fdb

open KeyedStore

/-! ## Recovery rows -/

/-- The id of the recovery row that an action writes. -/
def SharedAction.recoveryId : SharedAction → Option CommitAttemptId
  | .files (.dataMutation attempt) => attempt.recoveryId
  | .files _ => none
  | .tables _ commit => commit.recoveryId

def FdbStore.HasAttempt (store : FdbStore) (recoveryId : CommitAttemptId) : Prop :=
  (store.commitAttempt.get? recoveryId).isSome

section

variable {store next : FdbStore} {recoveryId : CommitAttemptId} {order : CatalogOrderId} {attempt : MutationAttempt}

theorem hasAttempt_stageCommitAttempt {written : Option CommitAttemptId} :
    (stageCommitAttempt order written store).HasAttempt recoveryId ↔
      written = some recoveryId ∨ store.HasAttempt recoveryId := by
  unfold FdbStore.HasAttempt
  cases written with
  | none => simp [stageCommitAttempt]
  | some id =>
    simp only [stageCommitAttempt, Option.elim_some, OrderedMap.get?_insert, Option.some.injEq]
    split
    · rename_i same
      simp [same]
    · rename_i other
      simp [Ne.symm other]

theorem AppliedMutation.commitAttempt (applied : AppliedMutation attempt store next) :
    next.commitAttempt = (stageCommitAttempt store.commitOrder attempt.recoveryId store).commitAttempt := by
  obtain ⟨opening⟩ := applied.opening
  have flushed : applied.flushed.commitAttempt = store.commitAttempt := by
    obtain ⟨_, _, _, _, _, _, same⟩ := stagePreparedInlineFlushes_writes applied.flushes
    rw [same]
  have begun : opening.begun.commitAttempt =
      (stageCommitAttempt store.commitOrder attempt.recoveryId store).commitAttempt := by
    rw [opening.begins]
    cases attempt.recoveryId with
    | none => exact flushed
    | some recoveryId => exact congrArg (OrderedMap.insert · recoveryId store.commitOrder) flushed
  rw [opening.ends]
  exact (stageOptionalInlineMutation_writes opening.inlines).commitAttempt.trans begun

/-- An action stores its own recovery row and keeps the others. -/
theorem SharedAction.Applies.hasAttempt_iff {action : SharedAction} (applies : action.Applies store next) :
    next.HasAttempt recoveryId ↔ action.recoveryId = some recoveryId ∨ store.HasAttempt recoveryId := by
  have written : next.commitAttempt =
      (stageCommitAttempt store.commitOrder action.recoveryId store).commitAttempt := by
    cases action with
    | tables tableOperation commit => exact commit.transact_commitAttempt applies.2
    | files commit =>
      rcases FdbCommit.Applies.cases applies with ⟨attempt, rfl, ⟨applied⟩⟩ | ⟨other, left⟩
      · exact applied.commitAttempt
      · cases commit with
        | dataMutation attempt => exact absurd rfl (other attempt)
        | inlineRows seen now mutation context => exact left.commitAttempt
        | inlineDeletes seen now delete commitSnapshot => exact left.commitAttempt
        | fileIds count => exact left.commitAttempt
  rw [FdbStore.HasAttempt, written]
  exact hasAttempt_stageCommitAttempt

/-- A data mutation is not committed where its recovery row is stored. -/
theorem AppliedMutation.unrecorded (applied : AppliedMutation attempt store next)
    (named : attempt.recoveryId = some recoveryId) : ¬store.HasAttempt recoveryId := by
  have validated := applied.validated
  unfold rejectStaleDataFileTargetsInTransaction at validated
  rw [bind_eq_ok] at validated
  obtain ⟨active, _, validated⟩ := validated
  intro recorded
  rw [named, Option.any_some, if_pos (by simpa [FdbStore.HasAttempt] using recorded)] at validated
  cases validated

theorem recoverCommittedMutation_recorded {recoveryId : Option CommitAttemptId} {commit : DataMutationCommit}
    (recovers : recoverCommittedMutation store recoveryId = some commit) :
    ∃ id, recoveryId = some id ∧ store.HasAttempt id := by
  unfold recoverCommittedMutation at recovers
  split at recovers
  · rename_i recorded
    exact (Option.any_eq_true ..).mp recorded
  · cases recovers

theorem transact_unstaged {outcome : StagedMutation}
    (transacts : attempt.transact store = .ok outcome) (unstaged : StagedMutation.store? (.ok outcome) = none) :
    (∃ id, attempt.recoveryId = some id ∧ store.HasAttempt id) ∨
      attempt.plan.readContext.snapshotFence = none ∧ attempt.plan.mutation.inlineFlushes ≠ [] := by
  unfold MutationAttempt.transact at transacts
  simp only [bind_eq_ok] at transacts
  obtain ⟨reserved, reserves, prepared, prepares, transacts⟩ := transacts
  obtain ⟨_, _, _, rfl⟩ := reserveMutationFileIds_renaming reserves
  unfold stageDataMutation at transacts
  simp only [bind_eq_ok] at transacts
  obtain ⟨⟨⟩, _, ⟨⟩, _, recovered, validated, transacts⟩ := transacts
  cases recovered with
  | true =>
    unfold rejectStaleDataFileTargetsInTransaction at validated
    rw [bind_eq_ok] at validated
    obtain ⟨_, _, validated⟩ := validated
    split at validated
    · rename_i recorded
      exact Or.inl ((Option.any_eq_true ..).mp recorded)
    · simp only [bind_eq_ok] at validated
      obtain ⟨_, _, _, _, _, _, impossible⟩ := validated
      cases impossible
  | false =>
    refine Or.inr ?_
    simp only [Bool.false_eq_true, if_false] at transacts
    unfold stageValidatedMutation at transacts
    split at transacts
    · rename_i overtaken
      split at transacts
      · cases transacts
      · rename_i unfenced
        refine ⟨Option.not_isSome_iff_eq_none.mp unfenced, fun noFlushes => ?_⟩
        have noneLeft : prepared.inlineFlushes = [] := by
          unfold prepareDataMutation at prepares
          simp only [bind_eq_ok] at prepares
          obtain ⟨_, _, _, _, _, _, flushes, prepareFlushes, _, _, prepares⟩ := prepares
          obtain rfl := pure_eq_ok.mp prepares
          have none : prepareInlineFlushes attempt.seen [] = .ok flushes := noFlushes ▸ prepareFlushes
          exact (Except.ok.inj none).symm
        rw [noneLeft] at overtaken
        cases overtaken
    · split at transacts
      · rename_i owed
        split at transacts
        · cases transacts
        · rename_i unfenced
          exact ⟨Option.not_isSome_iff_eq_none.mp unfenced, owed.1⟩
      · simp only [bind_eq_ok] at transacts
        obtain ⟨_, _, _, _, staged⟩ := transacts
        rw [← pure_eq_ok.mp staged] at unstaged
        cases unstaged

end

/-- The recovery row is from before the run, or an action of the run wrote it. -/
def SharedMoment.Records (moment : SharedMoment) (recoveryId : CommitAttemptId) : Prop :=
  match moment.action with
  | none => moment.store.HasAttempt recoveryId
  | some action => action.recoveryId = some recoveryId

/-- The runs of all clients, from any store. -/
abbrev ClientsRun (history : SharedHistory) : Prop :=
  History.Reachable (fun moment => moment.action = none) SharedStep history

theorem ClientsRun.hasAttempt_iff {history : SharedHistory} (run : ClientsRun history) {recoveryId : CommitAttemptId} :
    history.current.store.HasAttempt recoveryId ↔ ∃ moment ∈ history.states, moment.Records recoveryId := by
  induction run with
  | @start moment isStart =>
    simp only [History.states_start, List.mem_singleton, exists_eq_left, SharedMoment.Records, isStart]
    rfl
  | @step history moment run taken ih =>
    obtain ⟨action, acts, _, applies⟩ := taken
    rw [History.states_extend, History.current_extend, applies.hasAttempt_iff, ih]
    simp only [List.mem_cons, exists_eq_or_imp, SharedMoment.Records, acts]

/-- A data mutation committed under the recovery id. -/
def SharedMoment.commitsUnder (moment : SharedMoment) (recoveryId : CommitAttemptId) : Bool :=
  match moment.action with
  | some (.files (.dataMutation attempt)) => attempt.recoveryId = some recoveryId
  | _ => false

theorem SharedMoment.records_of_commitsUnder {moment : SharedMoment} {recoveryId : CommitAttemptId}
    (commits : moment.commitsUnder recoveryId = true) : moment.Records recoveryId := by
  unfold commitsUnder at commits
  unfold Records
  split at commits
  · rename_i attempt acts
    rw [acts]
    exact of_decide_eq_true commits
  · cases commits

/-- However many clients try, one data mutation at most is committed under a recovery id. -/
theorem ClientsRun.commitsUnder_once {history : SharedHistory} (run : ClientsRun history)
    (recoveryId : CommitAttemptId) : (history.states.filter (·.commitsUnder recoveryId)).length ≤ 1 := by
  induction run with
  | @start moment isStart => exact List.length_filter_le _ _
  | @step history moment run taken ih =>
    rw [History.states_extend, List.filter_cons]
    split
    · rename_i commits
      -- the row was missing, so nothing so far has been committed under the id
      have earlier : history.states.filter (·.commitsUnder recoveryId) = [] := by
        refine List.filter_eq_nil_iff.mpr fun other member commitsToo => ?_
        have recorded := (ClientsRun.hasAttempt_iff run).mpr
          ⟨other, member, SharedMoment.records_of_commitsUnder commitsToo⟩
        obtain ⟨action, acts, _, applies⟩ := taken
        unfold SharedMoment.commitsUnder at commits
        split at commits
        · rename_i attempt isMutation
          obtain rfl := Option.some.inj (acts.symm.trans isMutation)
          obtain ⟨applied⟩ := transact_staged applies
          exact applied.unrecorded (of_decide_eq_true commits) recorded
        · cases commits
      rw [earlier]
      exact Nat.le_refl 1
    · exact ih

theorem ClientsRun.commitsUnder_once_uncertain : ∃ history : SharedHistory,
    history.current.commitsUnder 7 ∧ (history.states.filter (·.commitsUnder 7)).length ≤ 1 := by
  have step := SharedMoment.mutating_step (History.start ⟨inventoryStore, none⟩)
    ⟨{ mutation := { dataFiles := [inventoryFile] } }, some 7, inventoryStore, 0, 0⟩ (List.mem_singleton_self _)
    (by decide +kernel)
  have run : ClientsRun _ := History.Reachable.step (.start rfl) step.1
  refine ⟨_, ?_, ClientsRun.commitsUnder_once run 7⟩
  rw [History.current_extend, SharedMoment.commitsUnder, step.2]
  rfl

/-! ## One call -/

/-- A call of `commit_planned_data_mutation` and the recovery id it uses. -/
structure MutationCall where
  plan : FdbMutationPlan
  recoveryId : Option CommitAttemptId

/-- What the call does next. -/
inductive CallPhase where
  | recovering (attemptIndex : Nat)
  | reserving (attemptIndex : Nat)
  | committing (attemptIndex firstFileId : Nat)
  | failing (attemptIndex : Nat) (errorClass : FoundationDbErrorClass)
  | answered (answer : CatalogResult DataMutationCommit)

def MutationCall.firstPhase (call : MutationCall) : CallPhase :=
  if call.plan.isEmpty then .answered (.ok {}) else .recovering 0

/-- The shared store and how far the call has come; `landed` holds the orders of its own transactions. -/
structure CallState where
  history : SharedHistory
  phase : CallPhase
  landed : List CatalogOrderId := []

def CallState.store (state : CallState) : FdbStore := state.history.current.store

/-- The state after FoundationDB has reported on the commit of a staged store. -/
def CallState.report (state : CallState) (attempt : MutationAttempt) (reserved : FdbMutationPlan) (attemptIndex : Nat)
    (staged : FdbStore) (report : CommitReport) : CallState where
  history := if report.landed then state.history.extend ⟨staged, some (.files (.dataMutation attempt))⟩ else state.history
  phase := match report.errorClass with
    | none => .answered (.ok (committedMutation reserved state.store.commitOrder))
    | some errorClass => .failing attemptIndex errorClass
  landed := if report.landed then state.store.commitOrder :: state.landed else state.landed

def CallPhase.afterFailure (attemptIndex : Nat) : CatalogResult MutationCommitAttempt → CallPhase
  | .ok (.done commit) => .answered (.ok commit)
  | .ok (.retry _) => .recovering (attemptIndex + 1)
  | .error failure => .answered (.error failure)

/-- A step of the call or of some other client. -/
inductive CallStep (call : MutationCall) (state : CallState) : CallState → Prop
  | other {moment : SharedMoment} (step : SharedStep state.history moment) :
      CallStep call state { state with history := state.history.extend moment }
  | recovers {attemptIndex : Nat} (here : state.phase = .recovering attemptIndex) :
      CallStep call state { state with
        phase := match recoverCommittedMutation state.store call.recoveryId with
          | some commit => .answered (.ok commit)
          | none => .reserving attemptIndex }
  | needsNoFileIds {attemptIndex : Nat} (here : state.phase = .reserving attemptIndex)
      (proposes : proposedFileIds call.plan.mutation = .ok []) :
      CallStep call state { state with phase := .committing attemptIndex 0 }
  | reserves {attemptIndex first : Nat} {proposed : List Nat} {next : FdbStore}
      (here : state.phase = .reserving attemptIndex) (proposes : proposedFileIds call.plan.mutation = .ok proposed)
      (needed : proposed ≠ []) (takes : reserveFileIdRange state.store proposed.length = .ok (first, next)) :
      CallStep call state { state with
        history := state.history.extend ⟨next, some (.files (.fileIds proposed.length))⟩
        phase := .committing attemptIndex first }
  /-- The transaction finds the recovery row, or another flush has overtaken those of the plan. -/
  | stops {attemptIndex first : Nat} {seen : FdbStore} {now : Int} {outcome : StagedMutation}
      (here : state.phase = .committing attemptIndex first)
      (transacts : MutationAttempt.transact ⟨call.plan, call.recoveryId, seen, first, now⟩ state.store = .ok outcome)
      (unstaged : StagedMutation.store? (.ok outcome) = none) :
      CallStep call state { state with phase := .answered (.ok {}) }
  | commits {attemptIndex first : Nat} {seen staged : FdbStore} {now : Int} {reserved : FdbMutationPlan}
      (report : CommitReport) (here : state.phase = .committing attemptIndex first)
      (reads : seen ∈ state.history.states.map SharedMoment.store)
      (reserves : reserveMutationFileIds first call.plan = .ok reserved)
      (transacts : MutationAttempt.transact ⟨call.plan, call.recoveryId, seen, first, now⟩ state.store =
        .ok (.staged staged)) :
      CallStep call state (state.report ⟨call.plan, call.recoveryId, seen, first, now⟩ reserved attemptIndex staged report)
  | failed {attemptIndex : Nat} {errorClass : FoundationDbErrorClass}
      (here : state.phase = .failing attemptIndex errorClass) :
      CallStep call state { state with
        phase := .afterFailure attemptIndex
          (failedCommitAnswer call.plan call.recoveryId attemptIndex errorClass state.store) }
  /-- A read, a reservation or a check has failed, or the transaction is too large. -/
  | givesUp {failure : CatalogError} (unanswered : ∀ answer, state.phase ≠ .answered answer) :
      CallStep call state { state with phase := .answered (.error failure) }

/-- Runs of one call among those of the other clients. -/
inductive CallRun (call : MutationCall) : CallState → Prop
  | start {history : SharedHistory} (run : ClientsRun history) : CallRun call ⟨history, call.firstPhase, []⟩
  | step {state next : CallState} (earlier : CallRun call state) (taken : CallStep call state next) : CallRun call next

/-- Plans the loop answers without committing them: empty ones, and unfenced flushes that another flush has overtaken. -/
def MutationCall.MayCommitNothing (call : MutationCall) : Prop :=
  call.plan.isEmpty = true ∨ call.plan.readContext.snapshotFence = none ∧ call.plan.mutation.inlineFlushes ≠ []

/-- What accounts for the answer of a call that succeeds. -/
def CallState.Accounts (call : MutationCall) (state : CallState) (commit : DataMutationCommit) : Prop :=
  (∃ order, state.landed = [order]) ∨
    (∃ recoveryId, call.recoveryId = some recoveryId ∧ state.store.HasAttempt recoveryId) ∨
      call.MayCommitNothing ∧ commit = {}

/-- The order is that of a data mutation of the call. -/
def CallState.Landed (call : MutationCall) (state : CallState) (order : CatalogOrderId) : Prop :=
  ∃ moment ∈ state.history.states, moment.store.lastOrder = order ∧ ∃ attempt,
    moment.action = some (.files (.dataMutation attempt)) ∧ attempt.plan = call.plan ∧ attempt.recoveryId = call.recoveryId

/-- What the phase says about the transactions of the call. -/
def CallState.Stands (call : MutationCall) (state : CallState) : Prop :=
  match state.phase with
  | .recovering _ | .reserving _ | .committing _ _ => state.landed = []
  | .failing _ errorClass => errorClass = .retryableNotCommitted → state.landed = []
  | .answered (.ok commit) => state.Accounts call commit
  | .answered (.error _) => True

/-- What holds of a call at every point. -/
structure CallState.Sound (call : MutationCall) (state : CallState) : Prop where
  run : ClientsRun state.history
  once : state.landed.length ≤ 1
  landed : ∀ order ∈ state.landed, state.Landed call order
  stands : state.Stands call

section

variable {call : MutationCall} {state next : CallState}

/-- A failed commit is answered with success only where the recovery row is found or the flush has been overtaken. -/
theorem failedCommitAnswer_done {attemptIndex : Nat} {errorClass : FoundationDbErrorClass}
    {store : FdbStore} {commit : DataMutationCommit}
    (answers : failedCommitAnswer call.plan call.recoveryId attemptIndex errorClass store = .ok (.done commit)) :
    (∃ id, call.recoveryId = some id ∧ store.HasAttempt id) ∨ call.MayCommitNothing ∧ commit = {} := by
  unfold failedCommitAnswer at answers
  split at answers
  · rename_i overtaken
    refine Or.inr ⟨Or.inr ⟨overtaken.1, overtaken.2.1⟩, ?_⟩
    simpa using answers.symm
  · split at answers
    · split at answers
      · rename_i recovers
        exact Or.inl (recoverCommittedMutation_recorded recovers)
      · cases answers
    · cases answers
    · cases answers

theorem failedCommitAnswer_retry {plan : FdbMutationPlan} {recoveryId : Option CommitAttemptId} {attemptIndex : Nat}
    {errorClass : FoundationDbErrorClass} {store : FdbStore} {failure : CatalogError}
    (answers : failedCommitAnswer plan recoveryId attemptIndex errorClass store = .ok (.retry failure)) :
    errorClass = .retryableNotCommitted := by
  unfold failedCommitAnswer at answers
  cases errorClass with
  | retryableNotCommitted => rfl
  | maybeCommitted =>
    simp only [mutationFailureAction] at answers
    split at answers
    · cases answers
    · split at answers <;> cases answers
  | retryable
  | nonRetryable =>
    simp only [mutationFailureAction] at answers
    split at answers <;> cases answers

namespace CallState.Sound

/-- The steps of the call that touch no store. -/
theorem inPhase (sound : state.Sound call) {phase : CallPhase}
    (stands : CallState.Stands call { state with phase := phase }) : CallState.Sound call { state with phase := phase } :=
  ⟨sound.run, sound.once, sound.landed, stands⟩

/-- A commit of any client keeps what the phase says. -/
theorem extend (sound : state.Sound call) {moment : SharedMoment} (step : SharedStep state.history moment) :
    CallState.Sound call { state with history := state.history.extend moment } where
  run := sound.run.step step
  once := sound.once
  landed order member := by
    obtain ⟨own, known, rest⟩ := sound.landed order member
    exact ⟨own, List.mem_cons_of_mem _ known, rest⟩
  stands := by
    have stands := sound.stands
    unfold CallState.Stands at stands ⊢
    dsimp only
    split at stands
    · exact stands
    · exact stands
    · exact stands
    · exact stands
    · rcases stands with own | ⟨recoveryId, named, recorded⟩ | nothing
      · exact Or.inl own
      · obtain ⟨action, _, _, applies⟩ := step
        exact Or.inr (Or.inl ⟨recoveryId, named, applies.hasAttempt_iff.mpr (Or.inr recorded)⟩)
      · exact Or.inr (Or.inr nothing)
    · trivial

theorem report (sound : state.Sound call) {attempt : MutationAttempt} {reserved : FdbMutationPlan} {staged : FdbStore}
    {attemptIndex : Nat} (report : CommitReport) (unlanded : state.landed = []) (plan : attempt.plan = call.plan)
    (recoveryId : attempt.recoveryId = call.recoveryId)
    (reads : attempt.seen ∈ state.history.states.map SharedMoment.store)
    (transacts : attempt.transact state.store = .ok (.staged staged)) :
    (state.report attempt reserved attemptIndex staged report).Sound call := by
  have step : SharedStep state.history ⟨staged, some (.files (.dataMutation attempt))⟩ :=
    ⟨_, rfl, fun seen isRead => List.mem_singleton.mp isRead ▸ reads, transacts⟩
  have owns : CallState.Landed call
      ⟨state.history.extend ⟨staged, some (.files (.dataMutation attempt))⟩, state.phase, state.landed⟩
      state.store.commitOrder := by
    obtain ⟨applied⟩ := transact_staged transacts
    exact ⟨_, List.mem_cons_self, applied.lastOrder, attempt, rfl, plan, recoveryId⟩
  have landing {phase : CallPhase} (stands : CallState.Stands call ⟨state.history.extend
      ⟨staged, some (.files (.dataMutation attempt))⟩, phase, [state.store.commitOrder]⟩) : CallState.Sound call
      ⟨state.history.extend ⟨staged, some (.files (.dataMutation attempt))⟩, phase,
        state.store.commitOrder :: state.landed⟩ := by
    rw [unlanded]
    exact ⟨sound.run.step step, Nat.le_refl 1, fun order member => List.mem_singleton.mp member ▸ owns, stands⟩
  cases report with
  | committed => exact landing (Or.inl ⟨_, rfl⟩)
  | notCommitted => exact sound.inPhase fun _ => unlanded
  | failed errorClass uncertain landed =>
    cases landed with
    | false => exact sound.inPhase fun _ => unlanded
    | true => exact landing fun certain => absurd certain uncertain

theorem step (sound : state.Sound call) (taken : CallStep call state next) : next.Sound call := by
  have stands := sound.stands
  unfold CallState.Stands at stands
  cases taken with
  | other step => exact sound.extend step
  | @recovers attemptIndex here =>
    rw [here] at stands
    cases recovers : recoverCommittedMutation state.store call.recoveryId with
    | none => exact sound.inPhase stands
    | some commit => exact sound.inPhase (Or.inr (Or.inl (recoverCommittedMutation_recorded recovers)))
  | needsNoFileIds here proposes =>
    rw [here] at stands
    exact sound.inPhase stands
  | @reserves _ first proposed store here proposes needed takes =>
    rw [here] at stands
    have step : SharedStep state.history ⟨store, some (.files (.fileIds proposed.length))⟩ :=
      ⟨_, rfl, by simp [SharedAction.reads, FdbCommit.seen], first, takes⟩
    exact (sound.extend step).inPhase stands
  | stops here transacts unstaged =>
    refine sound.inPhase ?_
    rcases transact_unstaged transacts unstaged with recorded | overtaken
    · exact Or.inr (Or.inl recorded)
    · exact Or.inr (Or.inr ⟨Or.inr overtaken, rfl⟩)
  | commits report here reads reserves transacts =>
    rw [here] at stands
    exact sound.report report stands rfl rfl reads transacts
  | @failed attemptIndex errorClass here =>
    rw [here] at stands
    cases answers : failedCommitAnswer call.plan call.recoveryId attemptIndex errorClass state.store with
    | error failure => exact sound.inPhase trivial
    | ok attempted =>
      cases attempted with
      | done commit => exact sound.inPhase (Or.inr (failedCommitAnswer_done answers))
      | retry failure => exact sound.inPhase (stands (failedCommitAnswer_retry answers))
  | givesUp unanswered => exact sound.inPhase trivial

end CallState.Sound

theorem CallRun.sound (run : CallRun call state) : state.Sound call := by
  induction run with
  | start run =>
    refine ⟨run, Nat.zero_le _, by simp, ?_⟩
    unfold CallState.Stands MutationCall.firstPhase
    cases nothing : call.plan.isEmpty with
    | true => exact Or.inr (Or.inr ⟨Or.inl nothing, rfl⟩)
    | false => rfl
  | step earlier taken ih => exact ih.step taken

/-- A landed transaction has stored the recovery row of the call. -/
theorem CallState.Sound.recorded (sound : state.Sound call) {recoveryId : CommitAttemptId}
    (named : call.recoveryId = some recoveryId) (landed : state.landed ≠ []) :
    state.store.HasAttempt recoveryId := by
  obtain ⟨order, member⟩ := List.exists_mem_of_ne_nil _ landed
  obtain ⟨moment, known, _, attempt, acts, _, same⟩ := sound.landed order member
  refine (ClientsRun.hasAttempt_iff sound.run).mpr ⟨moment, known, ?_⟩
  unfold SharedMoment.Records
  rw [acts]
  exact same.trans named

/-- A call commits its plan at most once, across all retries and commits of other clients. A success is accounted
for, and a landed commit that is reported as uncertain is answered with success. -/
theorem CallRun.commits_once (run : CallRun call state) :
    state.landed.length ≤ 1 ∧ (∀ order ∈ state.landed, state.Landed call order) ∧
      (∀ commit, state.phase = .answered (.ok commit) → state.Accounts call commit) ∧
      ∀ attemptIndex, call.recoveryId.isSome → state.landed ≠ [] → state.phase = .failing attemptIndex .maybeCommitted →
        failedCommitAnswer call.plan call.recoveryId attemptIndex .maybeCommitted state.store = .ok (.done {}) := by
  have sound := run.sound
  refine ⟨sound.once, sound.landed, fun commit answered => ?_, fun attemptIndex named landed _ => ?_⟩
  · have stands := sound.stands
    rw [CallState.Stands, answered] at stands
    exact stands
  · obtain ⟨recoveryId, isNamed⟩ := Option.isSome_iff_exists.mp named
    have recovers : recoverCommittedMutation state.store call.recoveryId = some {} := by
      rw [recoverCommittedMutation, isNamed, Option.any_some]
      exact if_pos (sound.recorded isNamed landed)
    simp [failedCommitAnswer, mutationFailureAction, recovers]

end

def uncertainCall : MutationCall := ⟨{ mutation := { dataFiles := [inventoryFile] } }, some 7⟩

theorem uncertainCall_run :
    ∃ state, CallRun uncertainCall state ∧ state.landed ≠ [] ∧ state.phase = .failing 0 .maybeCommitted := by
  have start : CallRun uncertainCall ⟨History.start ⟨inventoryStore, none⟩, .recovering 0, []⟩ :=
    .start (History.Reachable.start rfl)
  have unrecorded : CallRun uncertainCall ⟨History.start ⟨inventoryStore, none⟩, .reserving 0, []⟩ :=
    start.step (.recovers rfl)
  have reserved := unrecorded.step (.reserves rfl rfl (by decide) rfl)
  obtain ⟨staged, isStaged⟩ := Option.isSome_iff_exists.mp (show (StagedMutation.store? (MutationAttempt.transact
    ⟨uncertainCall.plan, uncertainCall.recoveryId, inventoryStore, 0, 0⟩
      (reservingMoment inventoryStore 1).store)).isSome by decide +kernel)
  exact ⟨_, reserved.step (.commits (.failed .maybeCommitted (by decide) true) rfl
    (List.mem_cons_of_mem _ List.mem_cons_self) rfl (StagedMutation.store?_eq_some isStaged)), List.cons_ne_nil _ _, rfl⟩

/-- The commit lands, is reported as uncertain and then recovered. -/
theorem CallRun.commits_once_uncertain : ∃ state : CallState, state.landed.length = 1 ∧
    failedCommitAnswer uncertainCall.plan (some 7) 0 .maybeCommitted state.store = .ok (.done {}) := by
  obtain ⟨state, run, landed, failing⟩ := uncertainCall_run
  obtain ⟨once, _, _, answers⟩ := CallRun.commits_once run
  exact ⟨state, le_antisymm once (List.length_pos_iff.mpr landed), answers 0 rfl landed failing⟩

end DucklakeCatalog.Fdb
