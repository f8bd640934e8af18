import DucklakeCatalog.Fdb.FileIds
import DucklakeCatalog.Run.FdbHistory

/-! File ids along the runs of clients that reserve ranges of them, commit files
under them and raise the watermark for other reasons. -/
namespace DucklakeCatalog.Fdb

open KeyedStore

/-- No stored file has an id that is still to be reserved. -/
def FileIdsCovered (kv : CatalogKv) : Prop :=
  ∀ fileId, (kv.dataFile.get? fileId).isSome ∨ (kv.deleteFile.get? fileId).isSome → FileIdTaken kv fileId

abbrev FileIdRun (history : FdbHistory) : Prop :=
  History.Reachable (fun moment => moment.commit = none ∧ FileIdsCovered moment.store.kv) FdbStep history

/-- The transaction reserves a number of ids from the first one on. -/
def Reserves (history : FdbHistory) (moment : Moment) (first count : Nat) : Prop :=
  moment.commit = some (.fileIds count) ∧
    reserveFileIdRange history.current.store count = .ok (first, moment.store)

def InRange (first count fileId : Nat) : Prop := first ≤ fileId ∧ fileId < first + count

/-- A data mutation commits a new file under the id, or the run starts with one. -/
def CommitsFileId (moment : Moment) (fileId : Nat) : Prop :=
  (∃ attempt plan, moment.commit = some (.dataMutation attempt) ∧ attempt.reserved = .ok plan ∧
      fileId ∈ plan.proposedFileIds) ∨
    moment.commit = none ∧
      ((moment.store.kv.dataFile.get? fileId).isSome ∨ (moment.store.kv.deleteFile.get? fileId).isSome)

/-- No id below the last one is reserved twice. -/
def RangesDisjoint (history : FdbHistory) : Prop :=
  ∀ earlier moment first count, history.Took earlier moment → Reserves earlier moment first count →
    ∀ sooner other otherFirst otherCount, earlier.Took sooner other → Reserves sooner other otherFirst otherCount →
      ∀ fileId < u64Max, InRange otherFirst otherCount fileId → ¬InRange first count fileId

/-- Reserved ids below the last one are greater than all that have been committed. -/
def RangesAboveCommitted (history : FdbHistory) : Prop :=
  ∀ earlier moment first count, history.Took earlier moment → Reserves earlier moment first count →
    ∀ sooner ∈ earlier.states, ∀ committed, CommitsFileId sooner committed →
      ∀ fileId < u64Max, InRange first count fileId → committed < fileId

theorem FdbCommit.Applies.keepsFileIds {commit : FdbCommit} {store next : FdbStore} (applies : commit.Applies store next) :
    KeepsFileIds store.kv next.kv := by
  cases commit with
  | dataMutation attempt =>
    obtain ⟨applied⟩ := transact_staged applies
    exact applied.fileIds.1
  | inlineRows seen now mutation context =>
    simp only [Applies, commitInlineTableMutations, bind_eq_ok, pure_eq_ok] at applies
    obtain ⟨prepared, _, staged, stages, rfl⟩ := applies
    have kept := stagePreparedInlineMutation_keepsFileIds stages
    exact fun fileId taken => kept fileId taken
  | inlineDeletes seen now delete commitSnapshot =>
    obtain ⟨latest, _, target, _, rfl⟩ := commitDeleteInlineTableRows_ok applies
    apply KeepsFileIds.of_eq
    refine (stageInlineDelete_maxFileId _ _ _).trans ?_
    split <;> rfl
  | fileIds count =>
    obtain ⟨first, reserves⟩ := applies
    exact (reserveFileIdRange_range reserves).keeps

theorem FileIdRun.keepsFileIds {history : FdbHistory} (run : FileIdRun history) {moment : Moment}
    (member : moment ∈ history.states) : KeepsFileIds moment.store.kv history.current.store.kv := by
  refine run.later (fun earlier later => KeepsFileIds earlier.store.kv later.store.kv) ?_ ?_ ?_ moment member
  · exact fun _ => KeepsFileIds.refl _
  · exact fun _ _ _ left right => left.trans right
  · rintro history moment _ ⟨commit, _, _, applies⟩
    exact applies.keepsFileIds

/-- Ids that have been committed are taken. -/
theorem FileIdRun.committed_taken {history : FdbHistory} (run : FileIdRun history) {moment : Moment}
    (member : moment ∈ history.states) {fileId : Nat} (commits : CommitsFileId moment fileId) :
    FileIdTaken history.current.store.kv fileId := by
  refine run.keepsFileIds member fileId ?_
  refine run.invariant (fun moment => CommitsFileId moment fileId → FileIdTaken moment.store.kv fileId) ?_ ?_ moment
    member commits
  · rintro moment ⟨isStart, covered⟩ (⟨attempt, plan, isMutation, _⟩ | ⟨_, stored⟩)
    · rw [isStart] at isMutation
      cases isMutation
    · exact covered fileId stored
  · rintro history moment _ ⟨commit, isCommit, _, applies⟩ (⟨attempt, plan, isMutation, reserves, listed⟩ | ⟨isStart, _⟩)
    · obtain rfl := Option.some.inj (isCommit.symm.trans isMutation)
      obtain ⟨applied⟩ := transact_staged applies
      obtain rfl := Except.ok.inj (applied.reserves.symm.trans reserves)
      exact applied.fileIds_taken listed
    · rw [isCommit] at isStart
      cases isStart

theorem FileIdRun.rangesDisjoint {history : FdbHistory} (run : FileIdRun history) : RangesDisjoint history := by
  intro earlier moment first count took reserves sooner other otherFirst otherCount tookOther otherReserves fileId small
    inOther inRange
  have before := (run.took took).1
  have taken := (reserveFileIdRange_range otherReserves.2).takes fileId inOther.2
  have kept := FileIdRun.keepsFileIds before tookOther.mem fileId taken
  have above := (reserveFileIdRange_range reserves.2).above fileId kept (lt_of_le_of_lt inRange.1 small)
  exact absurd inRange.1 (Nat.not_le_of_lt above)

theorem FileIdRun.rangesAboveCommitted {history : FdbHistory} (run : FileIdRun history) :
    RangesAboveCommitted history := by
  intro earlier moment first count took reserves sooner member committed commits fileId small inRange
  have taken := FileIdRun.committed_taken (run.took took).1 member commits
  have above := (reserveFileIdRange_range reserves.2).above committed taken (lt_of_le_of_lt inRange.1 small)
  exact lt_of_lt_of_le above inRange.1

/-- File ids are reserved once, and a mutation takes its reserved ids along with every
reference to its new data files. -/
theorem fileIds_reserved_once {history : FdbHistory} (run : FileIdRun history) :
    RangesDisjoint history ∧ RangesAboveCommitted history ∧
      ∀ first plan reserved, reserveMutationFileIds first plan = .ok reserved →
        ∃ given referred, FileIdRenaming first plan (· ∉ plan.proposedFileIds) given referred ∧
          reserved = plan.renamed given referred id :=
  ⟨FileIdRun.rangesDisjoint run, FileIdRun.rangesAboveCommitted run, fun _ _ _ => reserveMutationFileIds_renaming⟩

def reservingMoment (store : FdbStore) (count : Nat) : Moment :=
  ⟨((reserveFileIdRange store count).toOption.getD (0, store)).2, some (.fileIds count)⟩

theorem reservingMoment_reserves (history : FdbHistory) (count : Nat)
    (fits : (reserveFileIdRange history.current.store count).toOption.isSome) :
    Reserves history (reservingMoment history.current.store count)
      ((reserveFileIdRange history.current.store count).toOption.getD (0, history.current.store)).1 count :=
  ⟨rfl, eq_ok_getD (0, history.current.store) fits⟩

theorem Reserves.step {history : FdbHistory} {moment : Moment} {first count : Nat}
    (reserves : Reserves history moment first count) : FdbStep history moment :=
  ⟨.fileIds count, reserves.1, (fun _ reads => nomatch reads), first, reserves.2⟩

def firstReservation : Moment := reservingMoment {} 2

def secondReservation : Moment := reservingMoment firstReservation.store 1

def reservedHistory : FdbHistory := (History.start ⟨{}, none⟩).extend firstReservation

/-- Two clients reserve ids, of which none is given twice. -/
theorem fileIds_reserved_once_twice :
    Reserves (History.start ⟨{}, none⟩) firstReservation 0 2 ∧ Reserves reservedHistory secondReservation 2 1 ∧
      RangesDisjoint (reservedHistory.extend secondReservation) := by
  have first := reservingMoment_reserves (History.start ⟨{}, none⟩) 2 (by decide)
  have second := reservingMoment_reserves reservedHistory 1 (by decide)
  have starts : FileIdRun (History.start ⟨{}, none⟩) := by
    refine History.Reachable.start ⟨rfl, fun fileId stored => ?_⟩
    rcases stored with stored | stored <;> cases stored
  have run := History.Reachable.step (History.Reachable.step starts first.step) second.step
  exact ⟨first, second, (fileIds_reserved_once run).1⟩

/-- A delete file proposed under the id of the data file it is for, and a new data file that is dropped as well. -/
def collidingPlan : FdbMutationPlan where
  mutation := {
    dataFiles := [{ dataFileId := 4, tableId := 1, path := "new.parquet", recordCount := 1, fileSizeBytes := 1
                    validity := ⟨autoOrder, none⟩ }]
    deleteFiles := [{ deleteFileId := 1, dataFileId := 1, path := "delete.parquet", recordCount := 1
                      fileSizeBytes := 1, validity := ⟨autoOrder, none⟩ }]
    droppedDataFileIds := [4] }

def collidedPlan : FdbMutationPlan := (reserveMutationFileIds 7 collidingPlan).toOption.getD collidingPlan

/-- An id that a delete file is proposed under is renamed in references to data
files as well, and a dropped file keeps its id although it is new. -/
theorem fileIds_collide :
    (¬∀ first plan reserved, reserveMutationFileIds first plan = .ok reserved →
      ∃ given referred, FileIdRenaming first plan (· ∉ plan.mutation.dataFiles.map DataFileRow.dataFileId) given referred ∧
        reserved = plan.renamed given referred id) ∧
      ¬∀ first plan reserved, reserveMutationFileIds first plan = .ok reserved →
        ∃ given referred, FileIdRenaming first plan (· ∉ plan.proposedFileIds) given referred ∧
          reserved = plan.renamed given referred referred := by
  have reserves : reserveMutationFileIds 7 collidingPlan = .ok collidedPlan :=
    eq_ok_getD collidingPlan (by decide +kernel)
  constructor
  · intro keeps
    obtain ⟨given, referred, renames, same⟩ := keeps 7 collidingPlan collidedPlan reserves
    have kept := renames.others 1 (by decide)
    have target : collidedPlan.mutation.deleteFiles.map DeleteFileRow.dataFileId = [7] := by decide +kernel
    rw [same] at target
    have renamed : referred 1 = 7 := List.head_eq_of_cons_eq target
    omega
  · intro follows
    obtain ⟨given, referred, renames, same⟩ := follows 7 collidingPlan collidedPlan reserves
    have followed := renames.follows 4 (by decide)
    have appended : collidedPlan.mutation.dataFiles.map DataFileRow.dataFileId = [8] := by decide +kernel
    have dropped : collidedPlan.mutation.droppedDataFileIds = [4] := by decide +kernel
    rw [same] at appended dropped
    have new : given 4 = 8 := List.head_eq_of_cons_eq appended
    have old : referred 4 = 4 := List.head_eq_of_cons_eq dropped
    omega

end DucklakeCatalog.Fdb
