import DucklakeCatalog.Fdb.FileCommits
import DucklakeCatalog.Fdb.StoredFiles
import DucklakeCatalog.Run.DroppedTables
import DucklakeCatalog.Run.FdbOrders
import DucklakeCatalog.Run.ImmutableMetadata

/-! Runs of the FoundationDB backend under everything that writes or removes data
files, and the metadata of the files along them. -/
namespace DucklakeCatalog.Fdb

open KeyedStore

inductive FileAction where
  | shared (action : SharedAction)
  | files (commit : FileCommit)
  | cleanup (transaction : CleanupTransaction)
  | expiry (rawSequences : List RawSnapshotSequence)

namespace FileAction

/-- The states the action has read before its transaction. -/
def reads : FileAction → List FdbStore
  | .shared action => action.reads
  | .files commit => [commit.seen]
  | .cleanup _ => []
  | .expiry _ => []

/-- The new files, under the ids they are stored with. -/
def added : FileAction → List DataFileRow
  | .shared (.files (.dataMutation attempt)) =>
    (attempt.reserved.toOption.map fun plan => plan.mutation.dataFiles).getD []
  | .files commit => commit.added
  | _ => []

/-- The rows that the caller of a data mutation has loaded for it. -/
def preloaded : FileAction → List DataFileRow
  | .shared (.files (.dataMutation attempt)) => attempt.plan.readContext.dataFiles
  | _ => []

def Applies (store next : FdbStore) : FileAction → Prop
  | .shared action => action.Applies store next
  | .files commit => commit.Applies store next
  | .cleanup transaction => transaction.transact store = some next
  | .expiry rawSequences => ∃ expired kv, expireSnapshots store.kv rawSequences = .ok (expired, kv) ∧
    next = FdbStore.commitAt { store with kv } store.commitOrder

/-- What an action refers to was read from the store, and every new file has an id never used before. -/
structure UsesNewFiles (history : History FdbStore) (action : FileAction) : Prop where
  reads : ∀ seen ∈ action.reads, seen ∈ history.states
  preloaded : ∀ row ∈ action.preloaded, ∃ past ∈ history.states, past.kv.dataFile.get? row.dataFileId = some row
  distinct : (action.added.map DataFileRow.dataFileId).Nodup
  new : ∀ row ∈ action.added, ∀ past ∈ history.states, past.kv.dataFile.get? row.dataFileId = none

end FileAction

def FdbStore.dataFile (store : FdbStore) : OrderedMap DataFileId DataFileRow := store.kv.dataFile

/-- Every row stands under its own key, and a current row says of its file what the file's own row says. -/
def FileStart (store : FdbStore) : Prop :=
  TracksMetadata (fun dataFileId metadata => storedMetadata FdbStore.dataFile store dataFileId = some metadata) []
    (storedFiles store.kv)

def FileStep (history : History FdbStore) (next : FdbStore) : Prop :=
  ∃ action : FileAction, action.UsesNewFiles history ∧ action.Applies history.current next

abbrev FileRun (history : History FdbStore) : Prop := History.Reachable FileStart FileStep history

/-! ## Callers of data mutations -/

section

variable {read : CatalogKv} {sources : List DataFileRow}
variable {compactions : List DataFileCompaction} {planned : List PlannedCompaction} {window : ConflictWindow}
  {attempt : FdbMutationAttempt} {metadata : SnapshotCommitMetadata}

end

/-! ## Data mutations -/

variable {plan : FdbMutationPlan} {dataFileId : DataFileId} {row : DataFileRow} {files : StoredFiles}

theorem reserveMutationFileIds_preloaded {first : Nat} {reserved : FdbMutationPlan}
    (reserves : reserveMutationFileIds first plan = .ok reserved) :
    reserved.readContext.dataFiles = plan.readContext.dataFiles := by
  unfold reserveMutationFileIds at reserves
  rw [bind_eq_ok] at reserves
  obtain ⟨proposed, _, reserves⟩ := reserves
  split at reserves
  · obtain rfl := Except.ok.inj reserves
    rfl
  · obtain rfl := Except.ok.inj reserves
    rfl

/-- A row the mutation refers to is proposed by it, was loaded by its caller, or was read when it was prepared. -/
theorem prepareDataMutation_context {seen : FdbStore} {prepared : PreparedDataMutation}
    (prepares : prepareDataMutation seen plan = .ok prepared)
    (refers : prepared.dataFileContext.get? dataFileId = some row) :
    row ∈ prepared.mutation.dataFiles ∨ row ∈ plan.readContext.dataFiles ∨
      seen.kv.dataFile.get? dataFileId = some row := by
  have mutation := prepareDataMutation_mutation prepares
  unfold prepareDataMutation at prepares
  simp only [bind_eq_ok, pure_eq_ok] at prepares
  obtain ⟨_, _, _, _, _, _, _, _, context, loads, rfl⟩ := prepares
  dsimp only at refers mutation ⊢
  have proposed : ∀ query found, ((FdbDataMutation.prepared plan.mutation).dataFiles.foldl
      (fun (context : MutationDataFileContext) row => context.insert row.dataFileId row) .empty).get? query =
        some found → found ∈ (FdbDataMutation.prepared plan.mutation).dataFiles := by
    refine List.foldlRecOn (motive := fun context : MutationDataFileContext => ∀ query found,
      context.get? query = some found → found ∈ (FdbDataMutation.prepared plan.mutation).dataFiles) _ _ ?_ ?_
    · intro query found present
      simp at present
    · intro context soFar row member query found present
      rw [OrderedMap.get?_insert] at present
      split at present
      · obtain rfl := Option.some.inj present
        exact member
      · exact soFar query found present
  have known : ∀ query found, (MutationDataFileContext.known (FdbDataMutation.prepared plan.mutation).dataFiles
      plan.readContext.dataFiles).get? query = some found →
        found ∈ (FdbDataMutation.prepared plan.mutation).dataFiles ∨ found ∈ plan.readContext.dataFiles := by
    unfold MutationDataFileContext.known
    refine List.foldlRecOn (motive := fun context : MutationDataFileContext => ∀ query found,
      context.get? query = some found →
        found ∈ (FdbDataMutation.prepared plan.mutation).dataFiles ∨ found ∈ plan.readContext.dataFiles) _ _ ?_ ?_
    · exact fun query found present => Or.inl (proposed query found present)
    · intro context soFar row member query found present
      split at present
      · exact soFar query found present
      · rw [OrderedMap.get?_insert] at present
        split at present
        · obtain rfl := Option.some.inj present
          exact Or.inr member
        · exact soFar query found present
  refine foldlM_invariant (fun context : MutationDataFileContext => ∀ query found, context.get? query = some found →
    found ∈ (FdbDataMutation.prepared plan.mutation).dataFiles ∨ found ∈ plan.readContext.dataFiles ∨
      seen.kv.dataFile.get? query = some found) loads ?_ ?_ dataFileId row refers
  · exact fun query found present => (known query found present).imp_right Or.inl
  · intro context missingId next _ soFar taken query found present
    split at taken
    · cases taken
    · rename_i stored isStored
      split at taken
      · cases taken
      · obtain rfl := Except.ok.inj taken
        rw [OrderedMap.get?_insert] at present
        split at present
        · rename_i here
          obtain rfl := Option.some.inj present
          exact Or.inr (Or.inr (here ▸ isStored))
        · exact soFar query found present

section

variable {attempt : MutationAttempt} {store next : FdbStore} {known : KnownMetadata}

/-- The files after an applied mutation, when what it refers to is known. -/
theorem AppliedMutation.tracks (applied : AppliedMutation attempt store next)
    (tracks : TracksMetadata known applied.prepared.mutation.dataFiles (storedFiles store.kv))
    (new : ProposesNew known applied.prepared.mutation.dataFiles)
    (preloaded : ∀ row ∈ applied.plan.readContext.dataFiles, known row.dataFileId row.immutableMetadata)
    (seen : ∀ dataFileId row, attempt.seen.kv.dataFile.get? dataFileId = some row →
      known dataFileId row.immutableMetadata) :
    TracksMetadata known applied.prepared.mutation.dataFiles (storedFiles next.kv) := by
  obtain ⟨opening⟩ := applied.opening
  have before := applied.opened_sameFiles opening
  have openedFiles : storedFiles opening.opened = storedFiles store.kv :=
    congrArg₂ StoredFiles.mk before.dataFile before.currentDataFile
  have appended : TracksMetadata known applied.prepared.mutation.dataFiles (storedFiles opening.files.appended) := by
    refine foldlM_append_tracks (stageDataFile_appends store.commitOrder) opening.files.appends (openedFiles ▸ tracks)
      (fun _ member => member) new.distinct ?_
    intro row member
    rw [before.dataFile]
    exact (rejectExistingFileIds_fresh applied.fresh).freshDataFiles row member
  have noted : storedFiles opening.files.noted = storedFiles opening.files.appended :=
    congrArg₂ StoredFiles.mk opening.files.noted_dataFile.1 opening.files.noted_dataFile.2
  obtain ⟨rows, loaded, dropped⟩ := stageDroppedDataFiles_storedFiles opening.files.drops
  have ended : storedFiles next.kv = storedFiles opening.files.dropped := by
    have after := congrArg (fun store : FdbStore => storedFiles store.kv) opening.ends
    have expired := opening.files.next_writes.others
    exact after.trans (congrArg₂ StoredFiles.mk expired.1 expired.2.1)
  rw [ended, dropped, noted]
  refine appended.closeAll new store.commitOrder ?_
  intro row member
  obtain ⟨dataFileId, _, refers⟩ := loaded row member
  have named := prepareDataMutation_keyed applied.prepares dataFileId row refers
  rcases prepareDataMutation_context applied.prepares refers with proposed | given | stored
  · exact Or.inr ⟨row, proposed, rfl⟩
  · exact Or.inl (preloaded row given)
  · exact Or.inl (named ▸ seen dataFileId row stored)

end

/-! ## Steps -/

/-- What some state of the history has said of a data file. -/
def PastMetadata (history : History FdbStore) : KnownMetadata := fun dataFileId metadata =>
  ∃ past ∈ history.states, storedMetadata FdbStore.dataFile past dataFileId = some metadata

def HistoryTracks (history : History FdbStore) : Prop :=
  ∀ state ∈ history.states, TracksMetadata (PastMetadata history) [] (storedFiles state.kv)

theorem TracksMetadata.propose {known : KnownMetadata} (tracks : TracksMetadata known [] files)
    (proposed : List DataFileRow) : TracksMetadata known proposed files where
  stored := by
    intro dataFileId row found
    obtain ⟨named, origin⟩ := tracks.stored dataFileId row found
    exact ⟨named, origin.imp_right fun none => absurd none List.not_mem_nil⟩
  current := by
    intro key row found
    obtain ⟨named, origin⟩ := tracks.current key row found
    refine ⟨named, origin.imp_right ?_⟩
    rintro ⟨⟨file, none, _⟩, _⟩
    exact absurd none List.not_mem_nil

theorem TracksMetadata.mono {known wider : KnownMetadata} (tracks : TracksMetadata known [] files)
    (widens : ∀ dataFileId metadata, known dataFileId metadata → wider dataFileId metadata) :
    TracksMetadata wider [] files where
  stored := by
    intro dataFileId row found
    obtain ⟨named, origin⟩ := tracks.stored dataFileId row found
    exact ⟨named, origin.imp_left (widens _ _)⟩
  current := by
    intro key row found
    obtain ⟨named, origin⟩ := tracks.current key row found
    refine ⟨named, origin.imp (widens _ _) ?_⟩
    rintro ⟨⟨file, none, _⟩, _⟩
    exact absurd none List.not_mem_nil

theorem TracksMetadata.known_current {known : KnownMetadata}
    (tracks : TracksMetadata known [] files) {key : TableFileKey}
    (found : files.currentDataFile.get? key = some row) : known row.dataFileId row.immutableMetadata := by
  rcases (tracks.current key row found).2 with isKnown | ⟨⟨file, none, _⟩, _⟩
  · exact isKnown
  · exact absurd none List.not_mem_nil

section

variable {history : History FdbStore} {action : FileAction} {next : FdbStore} {proposed : List DataFileRow}

theorem pastMetadata_stored {past : FdbStore} (member : past ∈ history.states)
    (found : past.kv.dataFile.get? dataFileId = some row) :
    PastMetadata history dataFileId row.immutableMetadata :=
  ⟨past, member, congrArg (Option.map DataFileRow.immutableMetadata) found⟩

/-- New files are unknown to the history. -/
theorem proposesNew_of_unused (distinct : (proposed.map DataFileRow.dataFileId).Nodup)
    (unused : ∀ row ∈ proposed, ∀ past ∈ history.states, past.kv.dataFile.get? row.dataFileId = none) :
    ProposesNew (PastMetadata history) proposed where
  distinct := distinct
  unknown := by
    rintro row member metadata ⟨past, listed, stored⟩
    rw [storedMetadata, FdbStore.dataFile, unused row member past listed] at stored
    cases stored

theorem stageLoneDataFile_appends {order : CatalogOrderId} {kv following : CatalogKv}
    (taken : stageLoneDataFile order kv row = .ok following) : ∃ stored : DataFileRow,
    currentFileKey stored = currentFileKey row ∧ storedFiles following = (storedFiles kv).append stored := by
  unfold stageLoneDataFile at taken
  simp only [bind_eq_ok, pure_eq_ok] at taken
  obtain ⟨appended, appends, rfl⟩ := taken
  -- The same rows as in a data mutation, under another watermark.
  have stages : stageDataFile order kv row =
      .ok ((dataFileNextRowId row).elim appended (stageTableNextRowId appended row.tableId)) := by
    unfold stageDataFile
    rw [appends]
    rfl
  obtain ⟨stored, key, files⟩ := stageDataFile_appends order kv row _ stages
  refine ⟨stored, key, Eq.trans ?_ files⟩
  cases dataFileNextRowId row with
  | none => rfl
  | some nextRowId => rfl

theorem FileCommit.Applies.tracks {commit : FileCommit} {store : FdbStore} (applies : commit.Applies store next)
    {known : KnownMetadata} (tracks : TracksMetadata known commit.added (storedFiles store.kv))
    (new : ProposesNew known commit.added)
    (absent : ∀ row ∈ commit.added, store.kv.dataFile.get? row.dataFileId = none)
    (seen : ∀ dataFileId row, commit.seen.kv.dataFile.get? dataFileId = some row →
      row.dataFileId = dataFileId ∧ known dataFileId row.immutableMetadata) :
    TracksMetadata known commit.added (storedFiles next.kv) := by
  cases commit with
  | appendDataFiles read now rows =>
    simp only [FileCommit.Applies, appendDataFilesVersionstamped, bind_eq_ok, pure, Except.pure,
      Except.ok.injEq] at applies
    obtain ⟨kv, stages, rfl⟩ := applies
    rw [List.foldlM_map] at stages
    have appended : TracksMetadata known rows (storedFiles kv) := by
      refine foldlM_append_tracks ?_ stages tracks (fun _ member => member) new.distinct absent
      intro kv row following taken
      obtain ⟨stored, key, files⟩ := stageLoneDataFile_appends taken
      exact ⟨stored, key, files⟩
    exact appended
  | appendDataFile read attemptId baseOrder throughOrder row =>
    simp only [FileCommit.Applies, tryCommitAppendDataFileVersionstamped] at applies
    split at applies
    · cases applies
    · simp only [bind_eq_ok, pure_eq_ok, Option.some.injEq] at applies
      obtain ⟨_, _, rfl⟩ := applies
      have stamped : TracksMetadata known [row] ((storedFiles store.kv).append
          ({ row with validity := ⟨store.commitOrder, none⟩ } : DataFileRow)) :=
        tracks.append (List.mem_singleton_self row) rfl (absent row (List.mem_singleton_self row))
      exact stamped
  | expireDataFile read dataFileId =>
    simp only [FileCommit.Applies, expireDataFileVersionstamped] at applies
    split at applies
    · cases applies
    · rename_i row stored
      split at applies
      · cases applies
      · obtain rfl := Except.ok.inj applies
        obtain ⟨named, isKnown⟩ := seen dataFileId row stored
        exact tracks.close new store.commitOrder (Or.inl (named ▸ isKnown))

/-- A step keeps what is known of the files, apart from those it adds. -/
theorem FileStep.tracks (tracks : HistoryTracks history) (step : FileStep history next) :
    ∃ proposed, ProposesNew (PastMetadata history) proposed ∧
      (∀ dataFileId ∈ proposed.map DataFileRow.dataFileId, ∀ past ∈ history.states,
        past.kv.dataFile.get? dataFileId = none) ∧
      TracksMetadata (PastMetadata history) proposed (storedFiles next.kv) := by
  obtain ⟨action, uses, applies⟩ := step
  have current := tracks history.current history.current_mem
  have nothing (same : storedFiles next.kv = storedFiles history.current.kv) :
      ∃ proposed, ProposesNew (PastMetadata history) proposed ∧
        (∀ dataFileId ∈ proposed.map DataFileRow.dataFileId, ∀ past ∈ history.states,
          past.kv.dataFile.get? dataFileId = none) ∧
        TracksMetadata (PastMetadata history) proposed (storedFiles next.kv) :=
    ⟨[], .nothing _, fun _ none => absurd none List.not_mem_nil, same ▸ current⟩
  cases action with
  | files commit =>
    have new := proposesNew_of_unused uses.distinct uses.new
    refine ⟨commit.added, new, ?_, ?_⟩
    · intro dataFileId listed past member
      obtain ⟨row, isAdded, rfl⟩ := List.mem_map.mp listed
      exact uses.new row isAdded past member
    · refine FileCommit.Applies.tracks applies (current.propose _) new ?_ ?_
      · exact fun row member => uses.new row member _ history.current_mem
      · intro dataFileId row found
        have read := uses.reads commit.seen (List.mem_singleton_self _)
        exact ⟨((tracks _ read).stored dataFileId row found).1, pastMetadata_stored read found⟩
  | cleanup transaction =>
    obtain ⟨stored, currents⟩ := CleanupTransaction.transact_storedFiles applies
    refine ⟨[], .nothing _, fun _ none => absurd none List.not_mem_nil, ?_, ?_⟩
    · intro dataFileId row found
      exact current.stored dataFileId row (stored dataFileId row found)
    · intro key row found
      have known := current.known_current (currents key row found)
      exact ⟨(current.current key row (currents key row found)).1, Or.inl known⟩
  | expiry rawSequences =>
    obtain ⟨expired, kv, expires, rfl⟩ := applies
    refine nothing ?_
    unfold expireSnapshots at expires
    split at expires
    · obtain ⟨rfl, rfl⟩ := Prod.mk.inj (Except.ok.inj expires)
      rfl
    · simp only [bind_eq_ok, pure_eq_ok, Prod.mk.injEq] at expires
      obtain ⟨⟨_, batch⟩, staged, _, rfl⟩ := expires
      obtain ⟨timestamps, rfl⟩ := stageExpiredSnapshots_changes staged
      rfl
  | shared action =>
    cases action with
    | tables tableOperation commit =>
      obtain ⟨prepares, transacts⟩ := applies
      refine ⟨[], .nothing _, fun _ none => absurd none List.not_mem_nil, ?_⟩
      rw [commit.transact_storedFiles transacts]
      refine current.closeAll (.nothing _) history.current.commitOrder ?_
      intro row member
      obtain ⟨drop, isDrop, listed⟩ := List.mem_flatMap.mp member
      obtain ⟨dropped, _, isRead, rfl⟩ := TableOperation.prepare_drops prepares drop isDrop
      obtain ⟨⟨key, stored⟩, scanned, rfl⟩ := List.mem_map.mp (List.mem_filter.mp listed).1
      have read := tracks dropped.1 (uses.reads dropped.1 isRead)
      exact Or.inl (read.known_current (OrderedMap.mem_scan.mp scanned).1)
    | files commit =>
      rcases FdbCommit.Applies.cases applies with ⟨attempt, rfl, ⟨applied⟩⟩ | ⟨_, left⟩
      · have planned : applied.plan.mutation.dataFiles =
            (FileAction.shared (.files (.dataMutation attempt))).added := by
          rw [FileAction.added, applied.reserves]
          rfl
        have ids : applied.prepared.mutation.dataFiles.map DataFileRow.dataFileId =
            (FileAction.shared (.files (.dataMutation attempt))).added.map DataFileRow.dataFileId := by
          rw [prepareDataMutation_mutation applied.prepares, prepared_dataFile_ids, planned]
        have unused : ∀ dataFileId ∈ applied.prepared.mutation.dataFiles.map DataFileRow.dataFileId,
            ∀ past ∈ history.states, past.kv.dataFile.get? dataFileId = none := by
          intro dataFileId listed past member
          rw [ids] at listed
          obtain ⟨row, isAdded, rfl⟩ := List.mem_map.mp listed
          exact uses.new row isAdded past member
        have new : ProposesNew (PastMetadata history) applied.prepared.mutation.dataFiles := by
          refine proposesNew_of_unused (ids ▸ uses.distinct) ?_
          exact fun row member => unused _ (List.mem_map_of_mem member)
        refine ⟨_, new, unused, applied.tracks (current.propose _) new ?_ ?_⟩
        · intro row given
          rw [reserveMutationFileIds_preloaded applied.reserves] at given
          obtain ⟨past, member, stored⟩ := uses.preloaded row given
          exact pastMetadata_stored member stored
        · intro dataFileId row found
          exact pastMetadata_stored (uses.reads attempt.seen (List.mem_singleton_self _)) found
      · exact nothing (congrArg₂ StoredFiles.mk left.files.dataFile left.files.currentDataFile)

theorem HistoryTracks.extend (tracks : HistoryTracks history) (step : FileStep history next) :
    HistoryTracks (history.extend next) := by
  have wider : ∀ dataFileId metadata, PastMetadata history dataFileId metadata →
      PastMetadata (history.extend next) dataFileId metadata := by
    rintro dataFileId metadata ⟨past, member, stored⟩
    exact ⟨past, List.mem_cons_of_mem _ member, stored⟩
  intro state member
  rcases List.mem_cons.mp member with rfl | earlier
  · obtain ⟨proposed, _, _, after⟩ := step.tracks tracks
    refine ⟨?_, ?_⟩
    · intro dataFileId row found
      exact ⟨(after.stored dataFileId row found).1, Or.inl (pastMetadata_stored (History.current_mem _) found)⟩
    · intro key row found
      obtain ⟨named, origin⟩ := after.current key row found
      refine ⟨named, Or.inl ?_⟩
      rcases origin with known | ⟨_, same⟩
      · exact wider _ _ known
      · exact ⟨state, History.current_mem _, same⟩
  · exact (tracks state earlier).mono wider

end

section

variable {history : History FdbStore}

theorem FileRun.tracks (run : FileRun history) : HistoryTracks history := by
  induction run with
  | @start store isInitial =>
    intro state member
    rw [History.states_start, List.mem_singleton] at member
    subst member
    exact TracksMetadata.mono isInitial fun dataFileId metadata stored => ⟨state, List.mem_singleton_self _, stored⟩
  | step earlier taken ih => exact ih.extend taken

/-- The metadata of a data file is written once. -/
theorem FileRun.writeOnce (run : FileRun history) : WriteOnce (storedMetadata FdbStore.dataFile) history := by
  induction run with
  | start isInitial => exact .start _ _
  | step earlier taken ih =>
    refine ih.extend ?_
    obtain ⟨proposed, _, unused, after⟩ := taken.tracks (FileRun.tracks earlier)
    intro dataFileId metadata stored
    obtain ⟨row, found, rfl⟩ := Option.map_eq_some_iff.mp stored
    rcases (after.stored dataFileId row found).2 with known | new
    · exact Or.inl known
    · refine Or.inr fun past member => ?_
      rw [storedMetadata, Option.map_eq_none_iff]
      exact unused dataFileId new past member

theorem FileRun.named (run : FileRun history) : ∀ state ∈ history.states, ∀ dataFileId row,
    state.dataFile.get? dataFileId = some row → row.dataFileId = dataFileId :=
  fun state member dataFileId row found => ((FileRun.tracks run state member).stored dataFileId row found).1

end

def closedFile : DataFileRow where
  dataFileId := 1
  tableId := 1
  path := "closed.parquet"
  recordCount := 10
  fileSizeBytes := 100
  rowIdStart := 0
  rowIdStartKnown := true
  validity := ⟨autoOrder, none⟩

def closedFileAppended : FdbStore := (appendDataFilesVersionstamped {} 0 [closedFile] {}).toOption.getD {}

def closedFileEnded : FdbStore :=
  (expireDataFileVersionstamped closedFileAppended.kv 1 closedFileAppended).toOption.getD {}

def closedFileHistory : History FdbStore := ((History.start {}).extend closedFileAppended).extend closedFileEnded

def closedFileCache : ImmutableDataFileMetadataCache :=
  (immutableDataFileMetadataBatch closedFileAppended.dataFile Memo.empty none [1]).2

theorem closedFile_reader : MetadataReader FileStart FileStep FdbStore.dataFile closedFileHistory closedFileCache := by
  have start : FileStart {} := by
    constructor
    · intro dataFileId row found
      simp [storedFiles] at found
    · intro key row found
      simp [storedFiles] at found
  have appends : FileStep (.start {}) closedFileAppended := by
    refine ⟨.files (.appendDataFiles {} 0 [closedFile]), ⟨?_, ?_, ?_, ?_⟩, ?_⟩
    · exact fun seen read => read
    · exact fun row none => absurd none List.not_mem_nil
    · exact List.nodup_singleton _
    · intro row _ past member
      rw [List.mem_singleton.mp member]
      exact OrderedMap.get?_empty _
    · exact eq_ok_getD _ (by decide +kernel)
  have ends : FileStep ((History.start {}).extend closedFileAppended) closedFileEnded := by
    refine ⟨.files (.expireDataFile closedFileAppended 1), ⟨?_, ?_, ?_, ?_⟩, ?_⟩
    · intro seen read
      rw [List.mem_singleton.mp read]
      exact History.current_mem _
    · exact fun row none => absurd none List.not_mem_nil
    · exact List.nodup_nil
    · exact fun row none => absurd none List.not_mem_nil
    · exact eq_ok_getD _ (by decide +kernel)
  have reader : MetadataReader FileStart FileStep FdbStore.dataFile ((History.start {}).extend closedFileAppended)
      Memo.empty := .commits (.start (.start start)) appends
  exact .commits (reader.batch (History.current_mem _) none [1]) ends

end DucklakeCatalog.Fdb
