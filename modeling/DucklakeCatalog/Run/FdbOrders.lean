import DucklakeCatalog.Fdb.StampedMutations
import DucklakeCatalog.Run.FdbDeleters

/-! The orders that listings return over whole histories of the FoundationDB
backend. Each committed mutation stamps one field of a value at most. -/
namespace DucklakeCatalog.Fdb

open KeyedStore

/-! ## File ids of an accepted mutation -/

theorem rejectDuplicateFileIds_nodup {kind : String} {fileIds : List Nat}
    (accepted : rejectDuplicateFileIds kind fileIds = .ok ()) : fileIds.Nodup := by
  unfold rejectDuplicateFileIds at accepted
  rw [bind_eq_ok] at accepted
  obtain ⟨finish, folded, _⟩ := accepted
  have distinct : fileIds.Nodup ∧ ∀ fileId ∈ fileIds, fileId ∉ ([] : List Nat) := by
    generalize ([] : List Nat) = seen at folded ⊢
    induction fileIds generalizing seen with
    | nil => simp
    | cons fileId rest ih =>
      rw [List.foldlM_cons, bind_eq_ok] at folded
      obtain ⟨next, taken, folded⟩ := folded
      split at taken
      · simp at taken
      · rename_i unseen
        obtain rfl : fileId :: seen = next := by simpa using taken
        obtain ⟨distinct, missed⟩ := ih _ folded
        refine ⟨List.nodup_cons.mpr ⟨fun again => missed fileId again List.mem_cons_self, distinct⟩, ?_⟩
        intro other member
        rcases List.mem_cons.mp member with rfl | later
        · exact unseen
        · exact fun listed => missed other later (List.mem_cons_of_mem _ listed)
  exact distinct.1

/-- The ids that a mutation adds are distinct and new. -/
structure FreshFileIds (kv : CatalogKv) (mutation : FdbDataMutation) : Prop where
  dataFiles : (mutation.dataFiles.map DataFileRow.dataFileId).Nodup
  deleteFiles : (mutation.deleteFiles.map DeleteFileRow.deleteFileId).Nodup
  freshDataFiles : ∀ row ∈ mutation.dataFiles, kv.dataFile.get? row.dataFileId = none
  freshDeleteFiles : ∀ row ∈ mutation.deleteFiles, kv.deleteFile.get? row.deleteFileId = none

variable {mutation : FdbDataMutation} {seen : CatalogKv} {plan : FdbMutationPlan} {prepared : PreparedDataMutation}
  {order : CatalogOrderId} {row : DeleteFileRow}

theorem rejectExistingFileIds_fresh {kv : CatalogKv}
    (accepted : rejectExistingFileIds kv mutation = .ok ()) : FreshFileIds kv mutation := by
  unfold rejectExistingFileIds at accepted
  simp only [bind_eq_ok] at accepted
  obtain ⟨⟨⟩, dataFiles, ⟨⟩, deleteFiles, ⟨⟩, existingDataFiles, existingDeleteFiles⟩ := accepted
  refine ⟨rejectDuplicateFileIds_nodup dataFiles, rejectDuplicateFileIds_nodup deleteFiles, ?_, ?_⟩
  · intro row member
    have accepted := forM_eq_ok_iff.mp existingDataFiles row member
    split at accepted
    · simp at accepted
    · rename_i missing
      simpa using missing
  · intro row member
    have accepted := forM_eq_ok_iff.mp existingDeleteFiles row member
    split at accepted
    · simp at accepted
    · rename_i missing
      simpa using missing

/-! ## One mutation -/

/-- Every order that a mutation leaves to its commit is stamped in the value or stands in the key it is read with. -/
structure ResolvesOrders (seen : CatalogKv) (files : DataFileCopies) (deletes : DeleteFileCopies)
    (plan : FdbMutationPlan) (prepared : PreparedDataMutation) : Prop where
  named : ∀ row ∈ prepared.mutation.dataFiles, NamesBegin row
  partitioned : ∀ value ∈ prepared.mutation.partitionValues,
    value.dataFileId ∉ prepared.mutation.droppedDataFileIds ∧
      ∀ file ∈ prepared.dataFileContext.get? value.dataFileId, files.dataFile.get? file.dataFileId = some file
  dropped : ∀ dataFileId ∈ prepared.mutation.droppedDataFileIds, ∀ row ∈ prepared.dataFileContext.get? dataFileId,
    DropsStored seen files row
  separate : (prepared.mutation.deleteFiles.map DeleteFileRow.dataFileId).Nodup
  timed : ∀ row ∈ prepared.mutation.deleteFiles, row.maxPartialOrder = some autoOrder →
    deleteFileTimelineOrderForCommit prepared.mutation.dataFiles row = autoOrder
  replaced : ∀ row ∈ prepared.mutation.deleteFiles, ∀ current ∈ deletes.currentDeleteFile.get? row.dataFileId,
    FoundInTimeline seen deletes current
  expired : ∀ row ∈ plan.expiredDeleteFiles, ClosesStored seen deletes row.deleteFile

theorem resolvesOrders_iff {files : DataFileCopies} {deletes : DeleteFileCopies}
    :
    ResolvesOrders seen files deletes plan prepared ↔ (∀ row ∈ prepared.mutation.dataFiles, NamesBegin row) ∧
      (∀ value ∈ prepared.mutation.partitionValues, value.dataFileId ∉ prepared.mutation.droppedDataFileIds ∧
        ∀ file ∈ prepared.dataFileContext.get? value.dataFileId, files.dataFile.get? file.dataFileId = some file) ∧
      (∀ dataFileId ∈ prepared.mutation.droppedDataFileIds, ∀ row ∈ prepared.dataFileContext.get? dataFileId,
        DropsStored seen files row) ∧ (prepared.mutation.deleteFiles.map DeleteFileRow.dataFileId).Nodup ∧
      (∀ row ∈ prepared.mutation.deleteFiles, row.maxPartialOrder = some autoOrder →
        deleteFileTimelineOrderForCommit prepared.mutation.dataFiles row = autoOrder) ∧
      (∀ row ∈ prepared.mutation.deleteFiles, ∀ current ∈ deletes.currentDeleteFile.get? row.dataFileId,
        FoundInTimeline seen deletes current) ∧
      ∀ row ∈ plan.expiredDeleteFiles, ClosesStored seen deletes row.deleteFile := by
  constructor
  · rintro ⟨named, partitioned, dropped, separate, timed, replaced, expired⟩
    exact ⟨named, partitioned, dropped, separate, timed, replaced, expired⟩
  · rintro ⟨named, partitioned, dropped, separate, timed, replaced, expired⟩
    exact ⟨named, partitioned, dropped, separate, timed, replaced, expired⟩

instance (seen : CatalogKv) (files : DataFileCopies) (deletes : DeleteFileCopies) (plan : FdbMutationPlan)
    (prepared : PreparedDataMutation) : Decidable (ResolvesOrders seen files deletes plan prepared) :=
  decidable_of_iff _ resolvesOrders_iff.symm

/-- The condition on an attempt that commits on the given state. -/
def MutationAttempt.ResolvesOrders (attempt : MutationAttempt) (store : FdbStore) : Prop :=
  ∀ plan ∈ attempt.reserved.toOption, ∀ prepared ∈ (prepareDataMutation attempt.seen plan).toOption,
    Fdb.ResolvesOrders attempt.seen.kv (dataFileCopies store.kv) (deleteFileCopies store.kv) plan prepared

instance (attempt : MutationAttempt) (store : FdbStore) : Decidable (attempt.ResolvesOrders store) :=
  inferInstanceAs (Decidable (∀ plan ∈ attempt.reserved.toOption, _))

def StampedOrders (kv : CatalogKv) : Prop := (dataFileCopies kv).Stamped ∧ (deleteFileCopies kv).Stamped

theorem stageFilePartitionValues_lookups {context : MutationDataFileContext} {kv next : CatalogKv}
    {rows : List FilePartitionValueRow} (staged : stageFilePartitionValues context kv rows = .ok next) :
    ∀ key value, next.partitionValueLookup.get? key = some value →
      kv.partitionValueLookup.get? key = some value ∨ key.dataFileId ∈ rows.map FilePartitionValueRow.dataFileId := by
  refine foldlM_invariant (fun staged : CatalogKv => ∀ key value, staged.partitionValueLookup.get? key = some value →
    kv.partitionValueLookup.get? key = some value ∨ key.dataFileId ∈ rows.map FilePartitionValueRow.dataFileId)
    staged (fun _ _ found => Or.inl found) ?_
  intro staged row next member soFar taken key value found
  rw [bind_eq_ok] at taken
  obtain ⟨file, _, taken⟩ := taken
  simp only [pure_eq_ok] at taken
  subst taken
  simp only [stageFilePartitionValue, OrderedMap.get?_insert] at found
  split at found
  · rename_i here
    exact Or.inr (here ▸ List.mem_map_of_mem member)
  · exact soFar key value found

theorem stageDataFiles_lookups {kv next : CatalogKv} {rows : List DataFileRow}
    (staged : stageDataFiles order kv rows = .ok next) : next.partitionValueLookup = kv.partitionValueLookup := by
  refine foldlM_invariant (fun staged : CatalogKv => staged.partitionValueLookup = kv.partitionValueLookup) staged rfl ?_
  intro staged row next _ soFar taken
  have copies := congrArg DataFileCopies.partitionValueLookup (stageDataFile_copies taken)
  exact copies.trans soFar

theorem prepared_opened :
    (∀ row ∈ (FdbDataMutation.prepared mutation).dataFiles, row.validity.endOrder = none) ∧
      ∀ row ∈ (FdbDataMutation.prepared mutation).deleteFiles, row.validity.endOrder = none := by
  constructor
  · intro row member
    obtain ⟨given, _, rfl⟩ := List.mem_map.mp member
    unfold preparedDataFile
    split <;> rfl
  · intro row member
    obtain ⟨given, _, rfl⟩ := List.mem_map.mp member
    rfl

theorem timelineHolds_commit {dataFiles : List DataFileRow}
    (timed : row.maxPartialOrder = some autoOrder → deleteFileTimelineOrderForCommit dataFiles row = autoOrder) :
    TimelineHolds (deleteFileTimelineOrderForCommit dataFiles row) row := by
  refine ⟨?_, timed⟩
  intro auto
  unfold deleteFileTimelineOrderForCommit
  split
  · exact auto
  · rfl

variable {now : Int} {attempt : MutationAttempt} {history : FdbHistory}

/-- The copies of file rows at the start and at the end of the stages of a mutation's files. -/
theorem FileStages.stampedOrders {kv next : CatalogKv} (committed : order ≠ autoOrder)
    (stages : FileStages seen now order plan prepared kv next) (stamped : StampedOrders kv)
    (fresh : FreshFileIds kv prepared.mutation) (keyed : prepared.dataFileContext.Keyed)
    (openedFiles : ∀ row ∈ prepared.mutation.dataFiles, row.validity.endOrder = none)
    (openedDeletes : ∀ row ∈ prepared.mutation.deleteFiles, row.validity.endOrder = none)
    (resolves : ResolvesOrders seen (dataFileCopies kv) (deleteFileCopies kv) plan prepared) : StampedOrders next := by
  have appended := stageDataFiles_stamped committed stages.appends stamped.1 fresh.dataFiles fresh.freshDataFiles
    resolves.named openedFiles
  -- a stored file is not one of those that are being appended
  have stillStored : ∀ dataFileId row, kv.dataFile.get? dataFileId = some row →
      stages.appended.dataFile.get? dataFileId = some row := by
    intro dataFileId row present
    have missed : dataFileId ∉ prepared.mutation.dataFiles.map DataFileRow.dataFileId := by
      intro listed
      obtain ⟨other, member, rfl⟩ := List.mem_map.mp listed
      rw [fresh.freshDataFiles other member] at present
      simp at present
    exact (stageDataFiles_of_not_mem stages.appends missed).1.trans present
  obtain ⟨partitioned, sameFiles⟩ := stageFilePartitionValues_stamped keyed stages.partitions appended (by
    intro value member file known
    exact stillStored _ _ ((resolves.partitioned value member).2 file known))
  have described : dataFileCopies stages.described = dataFileCopies stages.partitioned := by
    rw [stages.counts]
    exact stageFileStats_copies order stages.partitioned prepared.mutation.fileColumnStats
  have deletedFiles := (stageDeleteFiles_writes stages.deletes).dataFileCopies
  have notedCopies : dataFileCopies stages.noted = dataFileCopies stages.deleted ∧
      deleteFileCopies stages.noted = deleteFileCopies stages.deleted := by
    obtain ⟨_, _, same⟩ := stages.noted_eq
    rw [same]
    exact ⟨rfl, rfl⟩
  have noted : dataFileCopies stages.noted = dataFileCopies stages.partitioned :=
    notedCopies.1.trans (deletedFiles.trans described)
  have dropped : (dataFileCopies stages.dropped).Stamped := by
    refine stageDroppedDataFiles_stamped committed stages.drops (noted ▸ partitioned) ?_
    intro dataFileId listed row known
    have drops := resolves.dropped dataFileId listed row known
    rw [noted]
    constructor
    · obtain ⟨stored, present, same⟩ := drops.stored
      refine ⟨stored, ?_, same⟩
      change stages.partitioned.dataFile.get? row.dataFileId = some stored
      rw [sameFiles]
      exact stillStored _ _ present
    · intro entry member sameFile
      rw [← OrderedMap.get?_eq_some_iff] at member
      rcases stageFilePartitionValues_lookups stages.partitions entry.1 entry.2 member with before | added
      · rw [stageDataFiles_lookups stages.appends] at before
        exact drops.lookups entry ((OrderedMap.get?_eq_some_iff _).mp before) sameFile
      · obtain ⟨value, valueMember, same⟩ := List.mem_map.mp added
        have rowId := keyed dataFileId row known
        have excluded := (resolves.partitioned value valueMember).1
        rw [same, sameFile, rowId] at excluded
        exact absurd listed excluded
  have expiredFiles := stages.next_writes.dataFileCopies
  -- the data files leave the delete files alone
  have opened : deleteFileCopies stages.described = deleteFileCopies kv :=
    stages.describes.deleteFileCopies.trans (stageDataFiles_writes stages.appends).deleteFileCopies
  obtain ⟨deleted, closes⟩ := stageDeleteFiles_stamped committed stages.deletes (opened ▸ stamped.2) {
    files := resolves.separate
    distinct := fresh.deleteFiles
    fresh := opened ▸ fresh.freshDeleteFiles
    opened := openedDeletes
    holds := fun row member => timelineHolds_commit (resolves.timed row member)
    found := opened ▸ resolves.replaced }
  have droppedDeletes : deleteFileCopies stages.dropped = deleteFileCopies stages.deleted :=
    (stageDroppedDataFiles_writes stages.drops).deleteFileCopies.trans notedCopies.2
  refine ⟨expiredFiles ▸ dropped, ?_⟩
  rw [stages.expires]
  refine stageExpiredDeleteFiles_stamped committed plan.expiredObjectCleanupPolicy (droppedDeletes ▸ deleted) ?_
  intro row member
  rw [droppedDeletes]
  exact closes row.deleteFile (opened ▸ resolves.expired row member)

variable {store next : FdbStore}

theorem AppliedMutation.stampedOrders (applied : AppliedMutation attempt store next)
    (stamped : StampedOrders store.kv) (resolves : attempt.ResolvesOrders store) : StampedOrders next.kv := by
  obtain ⟨opening⟩ := applied.opening
  have begun : SameCopies applied.flushed.kv opening.begun.kv := by
    rw [opening.begins]
    exact ⟨rfl, rfl⟩
  have opened : SameCopies opening.inlined.kv opening.opened := by
    obtain ⟨_, same⟩ := opening.opens
    rw [same]
    exact ⟨rfl, rfl⟩
  have same : SameCopies store.kv opening.opened :=
    (((stagePreparedInlineFlushes_writes applied.flushes).sameCopies.trans begun).trans
      (stageOptionalInlineMutation_writes opening.inlines).sameCopies).trans opened
  have files := applied.opened_sameFiles opening
  have fresh := rejectExistingFileIds_fresh applied.fresh
  have prepared := prepareDataMutation_mutation applied.prepares
  have resolved := resolves applied.plan (by rw [applied.reserves]; rfl) applied.prepared (by rw [applied.prepares]; rfl)
  have filed := opening.files.stampedOrders (Nat.succ_ne_zero _) ⟨same.1 ▸ stamped.1, same.2 ▸ stamped.2⟩
    ⟨fresh.dataFiles, fresh.deleteFiles, files.dataFile ▸ fresh.freshDataFiles, files.deleteFile ▸ fresh.freshDeleteFiles⟩
    (prepareDataMutation_keyed applied.prepares) (prepared ▸ prepared_opened.1) (prepared ▸ prepared_opened.2)
    (by rw [same.1, same.2]; exact resolved)
  have ended := congrArg FdbStore.kv opening.ends
  rw [ended]
  exact filed

theorem commitInlineTableMutations_sameCopies {seen : FdbStore} {mutation : FdbInlineMutation}
    {context : InlineTableCommitContext} (commits : commitInlineTableMutations seen now mutation context store = .ok next) :
    SameCopies store.kv next.kv := by
  unfold commitInlineTableMutations at commits
  simp only [bind_eq_ok, pure_eq_ok] at commits
  obtain ⟨prepared, _, staged, stages, rfl⟩ := commits
  have inlined := (stagePreparedInlineMutation_writes stages).sameCopies
  exact ⟨inlined.1, inlined.2⟩

theorem commitDeleteInlineTableRows_sameCopies {seen : FdbStore} {delete : InlineTableDeletePayload}
    {commitSnapshot : Option RawSnapshotSequence}
    (commits : commitDeleteInlineTableRows seen now delete commitSnapshot store = .ok (some next)) :
    SameCopies store.kv next.kv := by
  obtain ⟨latest, _, target, _, rfl⟩ := commitDeleteInlineTableRows_ok commits
  have deleted := fun order staged delete => (stageInlineDelete_writes order staged delete).sameCopies
  split
  · exact ⟨(deleted _ _ _).1, (deleted _ _ _).2⟩
  · exact ⟨(deleted _ _ _).1, (deleted _ _ _).2⟩

theorem FdbCommit.Applies.stampedOrders {commit : FdbCommit} (applies : commit.Applies store next)
    (stamped : StampedOrders store.kv)
    (resolves : ∀ attempt, commit = .dataMutation attempt → attempt.ResolvesOrders store) : StampedOrders next.kv := by
  have kept : SameCopies store.kv next.kv → StampedOrders next.kv :=
    fun same => ⟨same.1 ▸ stamped.1, same.2 ▸ stamped.2⟩
  cases commit with
  | dataMutation attempt =>
    obtain ⟨applied⟩ := transact_staged applies
    exact applied.stampedOrders stamped (resolves attempt rfl)
  | inlineRows seen now mutation context => exact kept (commitInlineTableMutations_sameCopies applies)
  | inlineDeletes seen now delete commitSnapshot => exact kept (commitDeleteInlineTableRows_sameCopies applies)
  | fileIds count =>
    obtain ⟨first, reserves⟩ := applies
    obtain ⟨_, rfl⟩ := reserveFileIdRange_ok reserves
    exact kept ⟨rfl, rfl⟩

/-! ## Runs and listings -/

/-- A catalog whose file rows all have their orders. -/
structure Moment.HasOrders (moment : Moment) : Prop where
  opens : moment.commit = none
  stamped : StampedOrders moment.store.kv

abbrev OrdersRun (history : FdbHistory) : Prop := History.Reachable Moment.HasOrders FdbStep history

/-- The data mutation of a step, if it is one, leaves no order open. -/
def StepResolvesOrders (earlier : FdbHistory) (moment : Moment) : Prop :=
  ∀ attempt, moment.commit = some (.dataMutation attempt) → attempt.ResolvesOrders earlier.current.store

theorem OrdersRun.stampedOrders (run : OrdersRun history)
    (resolves : ∀ earlier moment, history.Took earlier moment → StepResolvesOrders earlier moment) :
    ∀ moment ∈ history.states, StampedOrders moment.store.kv := by
  induction run with
  | @start moment isInitial =>
    intro found member
    rw [History.states_start, List.mem_singleton] at member
    exact member ▸ isInitial.stamped
  | @step history moment run taken ih =>
    have before := ih fun earlier later took => resolves earlier later (History.took_extend.mpr (Or.inr took))
    intro found member
    rcases List.mem_cons.mp member with rfl | earlier
    · obtain ⟨commit, commits, _, applies⟩ := taken
      refine applies.stampedOrders (before history.current history.current_mem) ?_
      rintro attempt rfl
      exact resolves history found (History.took_extend.mpr (Or.inl ⟨rfl, rfl⟩)) attempt commits
    · exact before found earlier

/-- The row has every order, and the row stored for the file has the same ones. -/
structure ReadsDataFile (kv : CatalogKv) (row : DataFileRow) : Prop where
  stamped : (dataFileOrders row).Stamped
  stored : ∃ stored, kv.dataFile.get? row.dataFileId = some stored ∧ dataFileOrders stored = dataFileOrders row

structure ReadsDeleteFile (kv : CatalogKv) (row : DeleteFileRow) : Prop where
  stamped : (deleteFileOrders row).Stamped
  stored : ∃ stored, kv.deleteFile.get? row.deleteFileId = some stored ∧ deleteFileOrders stored = deleteFileOrders row

/-- What every listing of files returns. -/
structure ListsOrders (kv : CatalogKv) : Prop where
  current : ∀ tableId, ∀ row ∈ scanCurrentDataFiles kv tableId, ReadsDataFile kv row
  begun : ∀ tableId snapshotOrder, ∀ row ∈ dataFilesBegunBy kv tableId snapshotOrder, ReadsDataFile kv row
  timeTravel : ∀ tableId snapshotOrder, ∀ row ∈ listDataFilesAt kv tableId snapshotOrder, ReadsDataFile kv row
  partitionValue : ∀ tableId partitionKeyIndex partitionValue,
    ∀ row ∈ listCurrentDataFilesByPartitionValue kv tableId partitionKeyIndex partitionValue, ReadsDataFile kv row
  currentDelete : ∀ dataFileId, ∀ row ∈ currentDeleteFileFor kv dataFileId, ReadsDeleteFile kv row
  timeline : ∀ dataFileId snapshotOrder, ∀ row ∈ loadDeleteFileAt kv dataFileId snapshotOrder, ReadsDeleteFile kv row

variable {kv : CatalogKv}

theorem DataFileCopies.Stamped.reads (stamped : (dataFileCopies kv).Stamped) {row stored : DataFileRow}
    (present : kv.dataFile.get? row.dataFileId = some stored) (view : dataFileView stored = dataFileView row) :
    ReadsDataFile kv row := by
  have orders : dataFileOrders stored = dataFileOrders row := congrArg Prod.snd view
  exact ⟨orders ▸ (stamped.stored _ stored present).2, stored, present, orders⟩

theorem DeleteFileCopies.Stamped.reads (stamped : (deleteFileCopies kv).Stamped) {stored : DeleteFileRow}
    (present : kv.deleteFile.get? row.deleteFileId = some stored) (view : deleteFileView stored = deleteFileView row) :
    ReadsDeleteFile kv row := by
  have orders : deleteFileOrders stored = deleteFileOrders row := congrArg Prod.snd view
  exact ⟨orders ▸ (stamped.stored _ stored present).2, stored, present, orders⟩

theorem StampedOrders.listsOrders (stamped : StampedOrders kv) : ListsOrders kv := by
  have current : ∀ tableId, ∀ row ∈ scanCurrentDataFiles kv tableId, ReadsDataFile kv row := by
    intro tableId row listed
    obtain ⟨entry, scanned, rfl⟩ := List.mem_map.mp (List.mem_filter.mp listed).1
    obtain ⟨stored, present, view⟩ := stamped.1.current entry.1 entry.2 (OrderedMap.mem_scan.mp scanned).1
    exact stamped.1.reads present view
  have begun : ∀ tableId snapshotOrder, ∀ row ∈ dataFilesBegunBy kv tableId snapshotOrder, ReadsDataFile kv row := by
    intro tableId snapshotOrder row listed
    obtain ⟨entry, scanned, rfl⟩ := List.mem_map.mp listed
    obtain ⟨stored, present, view⟩ := stamped.1.begun entry.1 entry.2 (OrderedMap.mem_scan.mp scanned).1
    exact stamped.1.reads present view
  refine ⟨current, begun, ?_, ?_, ?_, ?_⟩
  · intro tableId snapshotOrder row listed
    have visible := (List.mem_filter.mp listed).1
    rcases List.mem_append.mp visible with indexed | scanned
    · exact begun tableId snapshotOrder row (List.mem_filter.mp indexed).1
    · exact current tableId row (List.mem_filter.mp scanned).1
  · intro tableId partitionKeyIndex partitionValue row listed
    obtain ⟨entry, scanned, rfl⟩ := List.mem_map.mp (List.mem_filter.mp listed).1
    obtain ⟨stored, present, view⟩ := stamped.1.lookup entry.1 entry.2 (OrderedMap.mem_scan.mp scanned).1
    exact stamped.1.reads present view
  · intro dataFileId row listed
    have found := (Option.filter_eq_some_iff.mp listed).1
    obtain ⟨stored, present, view⟩ := stamped.2.current dataFileId row found
    exact stamped.2.reads present view
  · intro dataFileId snapshotOrder row listed
    rw [Option.mem_def] at listed
    unfold loadDeleteFileAt at listed
    split at listed
    · simp at listed
    · rename_i entry newest
      dsimp only at listed
      split at listed
      · obtain rfl := Option.some.inj listed
        have scanned := List.mem_of_getLast? newest
        obtain ⟨stored, present, view⟩ := stamped.2.timeline entry.1 entry.2 (OrderedMap.mem_scan.mp scanned).1
        exact stamped.2.reads present view
      · simp at listed

/-- In a run whose mutations resolve every order, no listing returns a placeholder, and all of them agree with the
stored rows. -/
theorem listings_resolve_orders {history : FdbHistory} (run : OrdersRun history)
    (resolves : ∀ earlier moment, history.Took earlier moment → StepResolvesOrders earlier moment) :
    ∀ moment ∈ history.states, ListsOrders moment.store.kv :=
  fun moment member => (run.stampedOrders resolves moment member).listsOrders

/-! ## A delete file that replaces another, and a partition value of a new file -/

theorem stampedOrders_of_empty (files : dataFileCopies kv = ⟨.empty, .empty, .empty, .empty⟩)
    (deletes : deleteFileCopies kv = ⟨.empty, .empty, .empty⟩) : StampedOrders kv := by
  refine ⟨files ▸ ?_, deletes ▸ ?_⟩
  · constructor
    · simp
    · exact Mirrors.empty
    · simp
    · exact Mirrors.empty
    · simp
    · exact Mirrors.empty
    · simp
  · constructor
    · simp
    · exact Mirrors.empty
    · simp
    · exact Mirrors.empty

theorem OrdersRun.commit (run : OrdersRun history) (seen : attempt.seen ∈ FdbHistory.stores history)
    (commits : (StagedMutation.store? (attempt.transact history.current.store)).isSome) :
    OrdersRun (FdbHistory.commit history attempt) :=
  History.Reachable.step run (FdbStep.commit seen commits)

theorem inventoryStart_hasOrders : inventoryStart.current.HasOrders :=
  ⟨rfl, stampedOrders_of_empty rfl rfl⟩

theorem inventoryStart_ordersRun : OrdersRun inventoryStart := History.Reachable.start inventoryStart_hasOrders

theorem inventoryAppended_ordersRun : OrdersRun inventoryAppended :=
  inventoryStart_ordersRun.commit inventoryStart.store_mem (by decide +kernel)

theorem inventoryDeleted_ordersRun : OrdersRun inventoryDeleted :=
  inventoryAppended_ordersRun.commit inventoryAppended.store_mem (by decide +kernel)

theorem inventoryReplaced_ordersRun : OrdersRun inventoryReplaced :=
  inventoryDeleted_ordersRun.commit inventoryDeleted.store_mem (by decide +kernel)

theorem stepResolvesOrders_commit (resolves : attempt.ResolvesOrders history.current.store) :
    StepResolvesOrders history (FdbHistory.commit history attempt).current := by
  intro found commits
  obtain rfl := FdbCommit.dataMutation.inj (Option.some.inj commits)
  exact resolves

/-- The second delete file begins where the first one did, also in the timeline. -/
theorem inventoryReplaced_lists_orders :
    OrdersRun inventoryReplaced ∧ ListsOrders inventoryReplaced.current.store.kv ∧
      (loadDeleteFileAt inventoryReplaced.current.store.kv 0 4).map deleteFileOrders = some ⟨3, none, some 4⟩ := by
  refine ⟨inventoryReplaced_ordersRun, ?_, by decide +kernel⟩
  refine listings_resolve_orders inventoryReplaced_ordersRun ?_ _ inventoryReplaced.current_mem
  intro earlier moment took
  rcases History.took_extend.mp took with ⟨rfl, rfl⟩ | took
  · exact stepResolvesOrders_commit (by decide +kernel)
  · rcases History.took_extend.mp took with ⟨rfl, rfl⟩ | took
    · exact stepResolvesOrders_commit (by decide +kernel)
    · rcases History.took_extend.mp took with ⟨rfl, rfl⟩ | took
      · exact stepResolvesOrders_commit (by decide +kernel)
      · exact absurd took (History.not_took_start _ _ _)

/-- The inventory file is appended together with its partition value. -/
def inventoryPartitioned : FdbHistory :=
  inventoryStart.commit
    { plan := { mutation := {
        dataFiles := [inventoryFile]
        partitionValues := [⟨0, 1, 0, "eu"⟩] } }
      recoveryId := none
      seen := inventoryStart.current.store }

theorem inventoryPartitioned_ordersRun : OrdersRun inventoryPartitioned :=
  inventoryStart_ordersRun.commit inventoryStart.store_mem (by decide +kernel)

/-- The partition lookup still holds the placeholder that every other copy has replaced. -/
theorem partitionLookup_leaks_placeholder :
    ¬∀ history, OrdersRun history → ∀ moment ∈ history.states, ListsOrders moment.store.kv := by
  intro lists
  have listed : inventoryFile ∈ listCurrentDataFilesByPartitionValue inventoryPartitioned.current.store.kv 1 0 "eu" := by
    decide +kernel
  have read := (lists _ inventoryPartitioned_ordersRun _ inventoryPartitioned.current_mem).partitionValue 1 0 "eu" _ listed
  exact read.stamped.beginOrder rfl

end DucklakeCatalog.Fdb
