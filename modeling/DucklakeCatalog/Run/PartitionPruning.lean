import DucklakeCatalog.Fdb.PartitionEffects
import DucklakeCatalog.Run.FdbOrders
import DucklakeCatalog.Run.SharedStores

/-! Pruned listings over whole runs. Data mutations append files with and without
partition values; drops of files and tables take lookups away again. -/
namespace DucklakeCatalog.Fdb

open KeyedStore

/-! ## One data mutation -/

/-- The mutation gives values to its own new files only, one a key. -/
structure GivesOwnValues (mutation : FdbDataMutation) : Prop where
  own : ∀ row ∈ mutation.partitionValues, row.dataFileId ∈ mutation.dataFiles.map DataFileRow.dataFileId
  single : ∀ left ∈ mutation.partitionValues, ∀ right ∈ mutation.partitionValues,
    left.valueKey = right.valueKey → left = right

variable {plan : FdbMutationPlan} {seen : FdbStore} {prepared : PreparedDataMutation} {order : CatalogOrderId}
  {kv : CatalogKv} {now : Int}

theorem FdbMutationPlan.renamed_givesOwnValues {first : Nat} {Other : Nat → Prop}
    {given referred : Nat → Nat} (renames : FileIdRenaming first plan Other given referred) (dropped : Nat → Nat)
    (own : GivesOwnValues plan.mutation) : GivesOwnValues (plan.renamed given referred dropped).mutation := by
  have follows (row : FilePartitionValueRow) (listed : row ∈ plan.mutation.partitionValues) :
      referred row.dataFileId = given row.dataFileId := renames.follows _ (own.own row listed)
  have proposed (row : FilePartitionValueRow) (listed : row ∈ plan.mutation.partitionValues) :
      row.dataFileId ∈ plan.proposedFileIds := List.mem_append_left _ (own.own row listed)
  constructor
  · intro row renamed
    obtain ⟨source, listed, rfl⟩ := List.mem_map.mp renamed
    obtain ⟨file, appended, same⟩ := List.mem_map.mp (own.own source listed)
    have renamedTo : given file.dataFileId = referred source.dataFileId := by
      rw [follows source listed, same]
    simp only [FdbMutationPlan.renamed, List.map_map]
    exact List.mem_map.mpr ⟨file, appended, renamedTo⟩
  · intro left leftRenamed right rightRenamed same
    obtain ⟨leftSource, leftListed, rfl⟩ := List.mem_map.mp leftRenamed
    obtain ⟨rightSource, rightListed, rfl⟩ := List.mem_map.mp rightRenamed
    simp only [FilePartitionValueRow.valueKey, FilePartitionValueKey.mk.injEq] at same
    have sameFile : given leftSource.dataFileId = given rightSource.dataFileId := by
      rw [← follows leftSource leftListed, ← follows rightSource rightListed]
      exact same.1
    have sameId := renames.distinct _ (proposed leftSource leftListed) _ (proposed rightSource rightListed) sameFile
    have sameKey : leftSource.valueKey = rightSource.valueKey := by
      simp only [FilePartitionValueRow.valueKey, sameId, same.2]
    rw [own.single leftSource leftListed rightSource rightListed sameKey]

/-- A file that the mutation appends is known to it as it appends it. -/
theorem prepareDataMutation_appended
    (prepares : prepareDataMutation seen plan = .ok prepared) {dataFileId : DataFileId}
    (appended : dataFileId ∈ prepared.mutation.dataFiles.map DataFileRow.dataFileId) :
    ∃ row ∈ prepared.mutation.dataFiles, prepared.dataFileContext.get? dataFileId = some row := by
  unfold prepareDataMutation at prepares
  simp only [bind_eq_ok, pure_eq_ok] at prepares
  obtain ⟨_, _, _, _, _, _, _, _, context, loads, rfl⟩ := prepares
  have proposed : ∃ row ∈ (FdbDataMutation.prepared plan.mutation).dataFiles,
      ((FdbDataMutation.prepared plan.mutation).dataFiles.foldl
        (fun context row => OrderedMap.insert context row.dataFileId row) .empty).get? dataFileId = some row := by
    rcases OrderedMap.get?_foldl_insert_cases .empty (FdbDataMutation.prepared plan.mutation).dataFiles
        DataFileRow.dataFileId id dataFileId with ⟨row, listed, _, found⟩ | ⟨missed, _⟩
    · exact ⟨row, listed, found⟩
    · obtain ⟨row, listed, same⟩ := List.mem_map.mp appended
      exact absurd same (missed row listed)
  -- neither a preloaded row nor a loaded one replaces a known row
  have known : ∃ row ∈ (FdbDataMutation.prepared plan.mutation).dataFiles,
      (MutationDataFileContext.known (FdbDataMutation.prepared plan.mutation).dataFiles
        plan.readContext.dataFiles).get? dataFileId = some row := by
    unfold MutationDataFileContext.known
    generalize (FdbDataMutation.prepared plan.mutation).dataFiles.foldl
      (fun context row => OrderedMap.insert context row.dataFileId row) .empty = start at proposed ⊢
    induction plan.readContext.dataFiles generalizing start with
    | nil => exact proposed
    | cons loaded rest ih =>
      rw [List.foldl_cons]
      split
      · exact ih _ proposed
      · rename_i missing
        apply ih
        obtain ⟨row, listed, found⟩ := proposed
        refine ⟨row, listed, ?_⟩
        rw [OrderedMap.get?_insert]
        split
        · rename_i same
          rw [← same, found] at missing
          exact absurd rfl missing
        · exact found
  obtain ⟨row, listed, found⟩ := known
  refine ⟨row, listed, ?_⟩
  refine foldlM_invariant (fun context : MutationDataFileContext => context.get? dataFileId = some row) loads found ?_
  intro context loadedId next wanted soFar taken
  have missing := (List.mem_filter.mp wanted).2
  have other : dataFileId ≠ loadedId := by
    rintro rfl
    rw [found] at missing
    cases missing
  split at taken
  · cases taken
  · split at taken
    · cases taken
    · obtain rfl := Except.ok.inj taken
      rw [OrderedMap.get?_insert, if_neg other]
      exact soFar

theorem stageDataFiles_losesLookups {next : CatalogKv} {rows : List DataFileRow}
    (staged : stageDataFiles order kv rows = .ok next) :
    LosesLookups kv next ∧ ∀ row ∈ rows, (next.dataFile.get? row.dataFileId).isSome := by
  have step {kv next : CatalogKv} {row : DataFileRow} (taken : stageDataFile order kv row = .ok next) :
      LosesLookups kv next ∧ (next.dataFile.get? row.dataFileId).isSome := by
    have copies := stageDataFile_copies taken
    have files := congrArg DataFileCopies.dataFile copies
    have lookups := congrArg DataFileCopies.partitionValueLookup copies
    have others : next.filePartitionValue = kv.filePartitionValue ∧ latestSnapshot next = latestSnapshot kv := by
      obtain ⟨_, _, _, _, _, _, _, _, _, rfl⟩ := stageDataFile_writes taken
      exact ⟨rfl, rfl⟩
    have inserted : next.dataFile = kv.dataFile.insert (appendedRows order row).1.dataFileId (appendedRows order row).1 :=
      files
    have kept : next.partitionValueLookup = kv.partitionValueLookup := lookups
    refine ⟨⟨others.1, fun key entry found => kept ▸ found, ?_, ?_⟩, ?_⟩
    · intro dataFileId stored
      rw [inserted]
      exact OrderedMap.get?_insert_isSome stored
    · rw [others.2]
      exact id
    · rw [inserted, ← appendedRows_dataFileId order row, OrderedMap.get?_insert_self, Option.isSome_some]
  refine ⟨foldlM_relates LosesLookups.refl (fun left right => left.trans right) (fun _ _ _ taken => (step taken).1)
    staged, ?_⟩
  exact foldlM_establishes (fun kv row => (kv.dataFile.get? row.dataFileId).isSome) staged
    (fun _ _ _ taken => (step taken).2) (fun _ _ _ _ taken stored => (step taken).1.stored _ stored)

/-- Values for files that have none keep the lookups sound. -/
theorem stageFilePartitionValues_namesValues {context : MutationDataFileContext} (keyed : context.Keyed)
    {next : CatalogKv} {rows : List FilePartitionValueRow}
    (staged : stageFilePartitionValues context kv rows = .ok next) (names : LookupsNameValues kv)
    (unvalued : ∀ key row dataFile, kv.partitionValueLookup.get? key = some (row, dataFile) →
      ∀ given ∈ rows, row.dataFileId ≠ given.dataFileId)
    (stored : ∀ row ∈ rows, (kv.dataFile.get? row.dataFileId).isSome)
    (opened : ∀ row ∈ rows, ∀ dataFile, context.get? row.dataFileId = some dataFile →
      dataFile.validity.endOrder = none)
    (single : ∀ left ∈ rows, ∀ right ∈ rows, left.valueKey = right.valueKey → left = right) :
    LookupsNameValues next ∧ latestSnapshot next = latestSnapshot kv := by
  suffices whole : LookupsNameValues next ∧ latestSnapshot next = latestSnapshot kv ∧ next.dataFile = kv.dataFile ∧
      ∀ key row dataFile, next.partitionValueLookup.get? key = some (row, dataFile) →
        kv.partitionValueLookup.get? key = some (row, dataFile) ∨ row ∈ rows from ⟨whole.1, whole.2.1⟩
  refine foldlM_invariant (fun staged : CatalogKv => LookupsNameValues staged ∧
    latestSnapshot staged = latestSnapshot kv ∧ staged.dataFile = kv.dataFile ∧
      ∀ key row dataFile, staged.partitionValueLookup.get? key = some (row, dataFile) →
        kv.partitionValueLookup.get? key = some (row, dataFile) ∨ row ∈ rows)
    staged ⟨names, rfl, rfl, fun _ _ _ found => Or.inl found⟩ ?_
  intro before given after member soFar taken
  obtain ⟨sound, latest, files, origin⟩ := soFar
  rw [bind_eq_ok] at taken
  obtain ⟨dataFile, loads, taken⟩ := taken
  obtain rfl := Except.ok.inj taken
  have known := MutationDataFileContext.load_eq_ok.mp loads
  -- an entry of the same file and key is this very value
  have same {key : PartitionValueLookupKey} {row : FilePartitionValueRow} {copy : DataFileRow}
      (found : before.partitionValueLookup.get? key = some (row, copy)) (sameKey : row.valueKey = given.valueKey) :
      row = given := by
    rcases origin key row copy found with old | listed
    · exact absurd (congrArg FilePartitionValueKey.dataFileId sameKey) (unvalued key row copy old given member)
    · exact single row listed given member sameKey
  have entries {key : PartitionValueLookupKey} {row : FilePartitionValueRow} {copy : DataFileRow}
      (found : (stageFilePartitionValue before given dataFile).partitionValueLookup.get? key = some (row, copy)) :
      (key = partitionLookupKey given ∧ row = given ∧ copy = dataFile) ∨
        before.partitionValueLookup.get? key = some (row, copy) := by
    have inserted : (before.partitionValueLookup.insert (partitionLookupKey given) (given, dataFile)).get? key =
      some (row, copy) := found
    rw [OrderedMap.get?_insert] at inserted
    split at inserted
    · rename_i here
      obtain ⟨rfl, rfl⟩ := Prod.mk.inj (Option.some.inj inserted)
      exact Or.inl ⟨here, rfl, rfl⟩
    · exact Or.inr inserted
  have valued : (stageFilePartitionValue before given dataFile).filePartitionValue =
      before.filePartitionValue.insert given.valueKey given := rfl
  refine ⟨⟨?_, ?_, ?_⟩, latest, files, ?_⟩
  · intro key row copy found
    rw [valued, OrderedMap.get?_insert]
    rcases entries found with ⟨here, rfl, _⟩ | old
    · exact ⟨here, if_pos rfl⟩
    · obtain ⟨named, value⟩ := sound.value old
      refine ⟨named, ?_⟩
      split
      · rename_i sameKey
        rw [same old sameKey]
      · exact value
  · intro key row copy found
    rcases entries found with ⟨_, rfl, rfl⟩ | old
    · exact ⟨keyed _ _ known, opened row member copy known⟩
    · exact sound.copy old
  · intro key row copy found
    have storedBefore : (before.dataFile.get? row.dataFileId).isSome := by
      rcases entries found with ⟨_, rfl, _⟩ | old
      · rw [files]
        exact stored row member
      · exact sound.stored old
    exact storedBefore
  · intro key row copy found
    rcases entries found with ⟨_, rfl, _⟩ | old
    · exact Or.inr member
    · exact origin key row copy old

theorem stageFileStats_partitionView (order : CatalogOrderId) (kv : CatalogKv) (rows : List FileColumnStatsRow) :
    CatalogKv.partitionView (stageFileStatsVersions order (rows.foldl stageFileColumnStats kv) rows) =
      CatalogKv.partitionView kv := by
  have stats := foldl_view CatalogKv.partitionView
    (fun _ _ => rfl : ∀ kv row, CatalogKv.partitionView (stageFileColumnStats kv row) = _) rows kv
  unfold stageFileStatsVersions
  split
  · exact stats
  · exact stats

theorem FileStages.namesValues {seen next : CatalogKv}
    (stages : FileStages seen now order plan prepared kv next) (names : LookupsNameValues kv)
    (begun : (latestSnapshot kv).isSome) (own : GivesOwnValues prepared.mutation)
    (fresh : ∀ row ∈ prepared.mutation.dataFiles, kv.dataFile.get? row.dataFileId = none)
    (keyed : prepared.dataFileContext.Keyed) (opened : ∀ row ∈ prepared.mutation.partitionValues, ∀ dataFile,
      prepared.dataFileContext.get? row.dataFileId = some dataFile → dataFile.validity.endOrder = none) :
    LookupsNameValues next ∧ (latestSnapshot next).isSome := by
  obtain ⟨appends, stored⟩ := stageDataFiles_losesLookups stages.appends
  have lookups := stageDataFiles_lookups stages.appends
  have appended (row : FilePartitionValueRow) (given : row ∈ prepared.mutation.partitionValues) :
      ∃ file ∈ prepared.mutation.dataFiles, file.dataFileId = row.dataFileId := List.mem_map.mp (own.own row given)
  obtain ⟨partitioned, sameLatest⟩ := stageFilePartitionValues_namesValues keyed stages.partitions
    (appends.namesValues names)
    (by
      intro key row dataFile found given member same
      rw [lookups] at found
      obtain ⟨file, listed, named⟩ := appended given member
      have taken := names.stored found
      rw [same, ← named, fresh file listed] at taken
      cases taken)
    (by
      intro given member
      obtain ⟨file, listed, named⟩ := appended given member
      exact named ▸ stored file listed)
    opened own.single
  have described : LosesLookups stages.partitioned stages.described := by
    rw [stages.counts]
    exact .of_eq (stageFileStats_partitionView order _ _)
  have noted : LosesLookups stages.deleted stages.noted := by
    obtain ⟨_, _, same⟩ := stages.noted_eq
    rw [same]
    exact .of_eq rfl
  have later : LosesLookups stages.partitioned next :=
    described.trans ((stageDeleteFiles_writes stages.deletes).losesLookups.trans
      (noted.trans ((stageDroppedDataFiles_losesLookups stages.drops).trans stages.next_writes.losesLookups)))
  have latest : (latestSnapshot stages.partitioned).isSome := by
    rw [sameLatest]
    exact appends.latest begun
  exact ⟨later.namesValues partitioned, later.latest latest⟩

variable {attempt : MutationAttempt} {store next : FdbStore}

/-- A data mutation that values its own new files keeps the lookups sound. -/
theorem AppliedMutation.namesValues (applied : AppliedMutation attempt store next)
    (names : LookupsNameValues store.kv) (begun : (latestSnapshot store.kv).isSome)
    (own : GivesOwnValues attempt.plan.mutation) :
    LookupsNameValues next.kv ∧ (latestSnapshot next.kv).isSome := by
  obtain ⟨given, referred, renames, reserved⟩ := reserveMutationFileIds_renaming applied.reserves
  have sameMutation := prepareDataMutation_mutation applied.prepares
  have ownReserved : GivesOwnValues applied.plan.mutation := by
    rw [reserved]
    exact FdbMutationPlan.renamed_givesOwnValues renames id own
  have ownPrepared : GivesOwnValues applied.prepared.mutation := by
    rw [sameMutation]
    refine ⟨fun row listed => ?_, ownReserved.single⟩
    rw [prepared_dataFile_ids]
    exact ownReserved.own row listed
  obtain ⟨opening⟩ := applied.opening
  have opens : LosesLookups opening.inlined.kv opening.opened := by
    obtain ⟨_, same⟩ := opening.opens
    rw [same]
    exact .of_eq rfl
  have begins : LosesLookups applied.flushed.kv opening.begun.kv := by
    rw [opening.begins]
    exact stageSnapshot_losesLookups _ _
  have before : LosesLookups store.kv opening.opened :=
    (stagePreparedInlineFlushes_writes applied.flushes).losesLookups.trans
      (begins.trans ((stageOptionalInlineMutation_writes opening.inlines).losesLookups.trans opens))
  have fresh : ∀ row ∈ applied.prepared.mutation.dataFiles, opening.opened.dataFile.get? row.dataFileId = none := by
    intro row listed
    rw [(applied.opened_sameFiles opening).dataFile]
    exact (rejectExistingFileIds_fresh applied.fresh).freshDataFiles row listed
  have filed := opening.files.namesValues (before.namesValues names) (before.latest begun) ownPrepared fresh
    (prepareDataMutation_keyed applied.prepares)
    (by
      intro row listed dataFile known
      obtain ⟨file, appended, found⟩ := prepareDataMutation_appended applied.prepares (ownPrepared.own row listed)
      obtain rfl := Option.some.inj (found.symm.trans known)
      rw [sameMutation] at appended
      exact prepared_opened.1 file appended)
  have ends : LosesLookups opening.filed next.kv :=
    .of_eq (congrArg (fun state : FdbStore => CatalogKv.partitionView state.kv) opening.ends)
  exact ⟨ends.namesValues filed.1, ends.latest filed.2⟩

/-! ## Runs -/

/-- What a data mutation of a run has to keep to. -/
def SharedAction.GivesOwnValues : SharedAction → Prop
  | .files (.dataMutation attempt) => Fdb.GivesOwnValues attempt.plan.mutation
  | _ => True

/-- Runs of a catalog that starts without partition values: files are appended with and without values of their
own, then dropped, merged and rewritten, while inline rows and tables change too. -/
abbrev PartitionRun (history : SharedHistory) : Prop :=
  History.Reachable (fun moment => moment.action = none ∧ moment.store.kv.partitionValueLookup = .empty ∧
      (latestSnapshot moment.store.kv).isSome)
    (fun history moment => SharedStep history moment ∧ ∀ action, moment.action = some action → action.GivesOwnValues)
    history

theorem commitInlineTableMutations_losesLookups {store next : FdbStore} {mutation : FdbInlineMutation}
    {context : InlineTableCommitContext} (commits : commitInlineTableMutations seen now mutation context store = .ok next) :
    LosesLookups store.kv next.kv := by
  unfold commitInlineTableMutations at commits
  simp only [bind_eq_ok, pure_eq_ok] at commits
  obtain ⟨prepared, _, staged, stages, rfl⟩ := commits
  have begins := stageSnapshot_losesLookups store.kv
    (mutationSnapshot now store.commitOrder prepared.sequence context.commitMetadata)
  exact begins.trans ((stagePreparedInlineMutation_writes stages).losesLookups.trans (.of_eq rfl))

theorem commitDeleteInlineTableRows_losesLookups {store next : FdbStore}
    {delete : InlineTableDeletePayload} {commitSnapshot : Option RawSnapshotSequence}
    (commits : commitDeleteInlineTableRows seen now delete commitSnapshot store = .ok (some next)) :
    LosesLookups store.kv next.kv := by
  obtain ⟨latest, _, target, _, rfl⟩ := commitDeleteInlineTableRows_ok commits
  have committed (opened : FdbStore) (prepared : PreparedInlineDelete) :
      LosesLookups opened.kv ((stageInlineDelete target.snapshot.order opened prepared).commitAt
        store.commitOrder).kv := (stageInlineDelete_writes _ _ _).losesLookups.trans (.of_eq rfl)
  refine LosesLookups.trans ?_ (committed _ _)
  split
  · exact stageSnapshot_losesLookups _ _
  · exact .refl _

theorem SharedAction.Applies.namesValues {action : SharedAction} (applies : action.Applies store next)
    (names : LookupsNameValues store.kv) (begun : (latestSnapshot store.kv).isSome) (own : action.GivesOwnValues) :
    LookupsNameValues next.kv ∧ (latestSnapshot next.kv).isSome := by
  have kept (loses : LosesLookups store.kv next.kv) : LookupsNameValues next.kv ∧ (latestSnapshot next.kv).isSome :=
    ⟨loses.namesValues names, loses.latest begun⟩
  cases action with
  | tables tableOperation commit => exact kept (commit.transact_losesLookups applies.2)
  | files commit =>
    cases commit with
    | dataMutation attempt =>
      obtain ⟨applied⟩ := transact_staged applies
      exact applied.namesValues names begun own
    | inlineRows seen now mutation context => exact kept (commitInlineTableMutations_losesLookups applies)
    | inlineDeletes seen now delete commitSnapshot => exact kept (commitDeleteInlineTableRows_losesLookups applies)
    | fileIds count =>
      obtain ⟨first, reserves⟩ := applies
      obtain ⟨_, rfl⟩ := reserveFileIdRange_ok reserves
      exact kept (.of_eq rfl)

theorem PartitionRun.namesValues {history : SharedHistory} (run : PartitionRun history) :
    ∀ moment ∈ history.states, LookupsNameValues moment.store.kv ∧ (latestSnapshot moment.store.kv).isSome := by
  refine History.Reachable.invariant _ ?_ ?_ run
  · rintro moment ⟨_, none, begun⟩
    refine ⟨⟨?_, ?_, ?_⟩, begun⟩
    · intro key row dataFile found
      simp [none] at found
    · intro key row dataFile found
      simp [none] at found
    · intro key row dataFile found
      simp [none] at found
  · rintro history moment before ⟨⟨action, acts, _, applies⟩, own⟩
    obtain ⟨names, begun⟩ := before history.current history.current_mem
    exact applies.namesValues names begun (own action acts)

/-- In every state of every run a pruned listing, at any snapshot and of the current files, loses no file that may
match exactly when some partition lookup of the key matches or there is no such file. -/
theorem partitionPruning_keeps_matches {history : SharedHistory} (run : PartitionRun history)
    (other : OtherScalarOrder) (request : PartitionPruneRequest) (snapshotOrder : CatalogOrderId) :
    ∀ moment ∈ history.states,
      (PrunesSafelyAt other moment.store.kv request snapshotOrder ↔
          HasMatchingLookup other moment.store.kv request ∨
            ∀ row ∈ foundationdbVisibleDataFilesAt moment.store.kv request.tableId snapshotOrder,
              ¬mayMatch other moment.store.kv request row) ∧
        (PrunesCurrentSafely other moment.store.kv request ↔
          HasMatchingLookup other moment.store.kv request ∨
            ∀ row ∈ scanCurrentDataFiles moment.store.kv request.tableId, ¬mayMatch other moment.store.kv request row) := by
  intro moment member
  obtain ⟨names, begun⟩ := run.namesValues moment member
  exact ⟨names.prunesSafelyAt_iff, names.prunesCurrentSafely_iff begun⟩

/-- One file from before the table was partitioned, one of the partition "eu". -/
def europeAppender : MutationAttempt :=
  { plan := { mutation := {
      dataFiles := [inventoryFile, { inventoryFile with dataFileId := 1, path := "eu.parquet" }]
      partitionValues := [⟨1, 1, 0, "eu"⟩] } }
    recoveryId := none
    seen := inventoryStore }

def europeHistory : SharedHistory :=
  (History.start ⟨inventoryStore, none⟩).extend (.mutating inventoryStore europeAppender)

theorem europeHistory_run : PartitionRun europeHistory := by
  have appends := SharedMoment.mutating_step (History.start ⟨inventoryStore, none⟩) europeAppender
    (List.mem_singleton_self _) (by decide +kernel)
  refine History.Reachable.step (History.Reachable.start ⟨rfl, rfl, by decide +kernel⟩) ⟨appends.1, ?_⟩
  intro action acts
  obtain rfl := Option.some.inj (appends.2.symm.trans acts)
  exact ⟨by decide +kernel, by decide +kernel⟩

/-- Which files hold rows of the region. -/
def regionRequest (region : String) : PartitionPruneRequest := ⟨1, 0, "VARCHAR", .equal, region⟩

theorem partitionPruning_keeps_matches_eu :
    PrunesSafelyAt (fun _ _ _ => none) europeHistory.current.store.kv (regionRequest "eu") 2 ∧
      PrunesCurrentSafely (fun _ _ _ => none) europeHistory.current.store.kv (regionRequest "eu") := by
  have keeps := partitionPruning_keeps_matches europeHistory_run (fun _ _ _ => none) (regionRequest "eu") 2 _
    europeHistory.current_mem
  have matching : HasMatchingLookup (fun _ _ _ => none) europeHistory.current.store.kv (regionRequest "eu") :=
    ⟨⟨1, 0, "eu", 1⟩, by decide +kernel, rfl, rfl, by decide +kernel⟩
  exact ⟨keeps.1.mpr (Or.inl matching), keeps.2.mpr (Or.inl matching)⟩

/-- Without a matching value the file that has none is not listed either. -/
theorem partitionPruning_loses_unpartitioned :
    ¬∀ history, PartitionRun history → ∀ other request snapshotOrder, ∀ moment ∈ history.states,
      PrunesSafelyAt other moment.store.kv request snapshotOrder ∧ PrunesCurrentSafely other moment.store.kv request := by
  intro safe
  have keeps := (safe _ europeHistory_run (fun _ _ _ => none) (regionRequest "us") 2 _ europeHistory.current_mem).1
  have visible : inventoryFile.withBeginOrder 2 ∈
      foundationdbVisibleDataFilesAt europeHistory.current.store.kv 1 2 := by decide +kernel
  have listed := keeps _ visible (by decide +kernel)
  revert listed
  decide +kernel

end DucklakeCatalog.Fdb
