import DucklakeCatalog.File.Listing
import DucklakeCatalog.Run.DeleteFileRemoval
import Mathlib.Data.List.Find
import Mathlib.Data.List.Nodup

namespace DucklakeCatalog

open KeyedStore

/-! ## Current delete files name the data file they are filed under -/

def CatalogKv.CurrentDeletesOwned (kv : CatalogKv) : Prop :=
  ∀ dataFileId row, kv.currentDeleteFile.get? dataFileId = some row → row.dataFileId = dataFileId

section

variable {kv : CatalogKv} {batch next : KvBatch} {order : CatalogOrderId}

theorem CatalogKv.CurrentDeletesOwned.congr (owned : (kv.commit batch).CurrentDeletesOwned)
    (same : next.deleteFileMaps = batch.deleteFileMaps) : (kv.commit next).CurrentDeletesOwned := by
  have sameIndexes := kv.commit_deleteFileIndexes_congr same
  have sameCurrent : (kv.commit next).currentDeleteFile = (kv.commit batch).currentDeleteFile :=
    congrArg DeleteFileIndexes.currentDeleteFile sameIndexes
  intro dataFileId row found
  rw [sameCurrent] at found
  exact owned _ _ found

/-- The staged current entry after an accepted registration. -/
theorem stageRegisterDeleteFileForDataFile_current {dataFile : DataFileRow} {row registered : DeleteFileRow}
    (success : stageRegisterDeleteFileForDataFile kv batch dataFile row order = .ok (registered, next)) :
    registered = inheritCurrentDeleteBeginOrder kv row ∧
      (kv.commit next).currentDeleteFile = (kv.commit batch).currentDeleteFile.insert row.dataFileId registered := by
  unfold stageRegisterDeleteFileForDataFile at success
  simp only [bind_eq_ok, pure_eq_ok, Prod.mk.injEq] at success
  obtain ⟨closed, closes, rfl, rfl⟩ := success
  have sameFile := (inheritCurrentDeleteBeginOrder_eq kv row).2.1
  refine ⟨rfl, ?_⟩
  rcases stageCloseCurrentDeleteFile_ok closes with ⟨_, rfl⟩ | ⟨current, _, _, _, rfl⟩
  · simp [CatalogKv.commit, stageMaxFileIdWatermark, putRegisteredDeleteFile, sameFile]
  · simp [CatalogKv.commit, stageMaxFileIdWatermark, putRegisteredDeleteFile, putClosedDeleteFile, sameFile]

theorem CatalogKv.CurrentDeletesOwned.register (owned : (kv.commit batch).CurrentDeletesOwned)
    {dataFile : DataFileRow} {row registered : DeleteFileRow}
    (success : stageRegisterDeleteFileForDataFile kv batch dataFile row order = .ok (registered, next)) :
    (kv.commit next).CurrentDeletesOwned := by
  obtain ⟨rfl, current⟩ := stageRegisterDeleteFileForDataFile_current success
  intro dataFileId stored found
  rw [current, OrderedMap.get?_insert] at found
  split at found
  · rename_i same
    obtain rfl := Option.some.inj found
    exact (inheritCurrentDeleteBeginOrder_eq kv row).2.1.trans same.symm
  · exact owned _ _ found

theorem CatalogKv.CurrentDeletesOwned.erase (owned : (kv.commit batch).CurrentDeletesOwned) (dataFileId : DataFileId)
    (current : next.currentDeleteFile = batch.currentDeleteFile.delete dataFileId) :
    (kv.commit next).CurrentDeletesOwned := by
  intro other stored found
  have same : (kv.commit next).currentDeleteFile = kv.currentDeleteFile.commit (batch.currentDeleteFile.delete dataFileId) :=
    congrArg kv.currentDeleteFile.commit current
  rw [same] at found
  by_cases kept : other ≠ dataFileId ∨ batch.currentDeleteFile.Writes dataFileId
  · rw [OrderedMap.get?_commit_delete _ _ _ _ kept] at found
    exact owned _ _ found
  · push Not at kept
    obtain ⟨rfl, unwritten⟩ := kept
    rw [OrderedMap.get?_commit_delete_self _ _ _ unwritten] at found
    simp at found

variable {operation : CatalogOperation}

theorem CatalogKv.CurrentDeletesOwned.commits (owned : kv.CurrentDeletesOwned)
    (commits : operation.Commits kv batch) : (kv.commit batch).CurrentDeletesOwned := by
  have untouched {staged : KvBatch} (same : staged.deleteFileMaps = ({} : KvBatch).deleteFileMaps) :
      (kv.commit staged).CurrentDeletesOwned :=
    CatalogKv.CurrentDeletesOwned.congr (show (kv.commit {}).CurrentDeletesOwned from owned) same
  cases commits with
  | createTable _ staged =>
    obtain ⟨_, rfl⟩ := stageCreateTableRow_ok staged
    exact untouched rfl
  | appendDataFiles staged => exact untouched (stageAppendDataFiles_deleteFileMaps staged)
  | dataMutation valid staged =>
    obtain ⟨opening, finish, before, registers, after⟩ := stageDataMutation_registers staged
    refine CatalogKv.CurrentDeletesOwned.congr ?_ after
    refine foldlM_invariant (fun state => (kv.commit state.2).CurrentDeletesOwned) registers (untouched before) ?_
    intro state row next _ soFar taken
    simp only [bind_eq_ok, pure_eq_ok] at taken
    obtain ⟨prepared, _, ⟨registered, registeredBatch⟩, stages, rfl⟩ := taken
    obtain ⟨dataFile, _, stages⟩ := stageMaterializedDeleteFile_ok stages
    exact soFar.register stages
  | mergeAdjacent _ staged => exact untouched (stageMergeAdjacent_deleteFileMaps staged)
  | rewriteDelete valid staged =>
    obtain ⟨expired, expires, after⟩ := stageRewriteDelete_closes staged
    refine CatalogKv.CurrentDeletesOwned.congr ?_ after
    refine expireRewriteSources_invariant (fun state => (kv.commit state).CurrentDeletesOwned) expires (untouched rfl)
      ?_ ?_
    · intro state closed _ _ soFar expiresSource
      exact soFar.congr (expireCompactedSourceFile_deleteFileMaps expiresSource)
    · intro state _ dataFile _ soFar
      exact soFar.erase dataFile.dataFileId rfl
  | registerDeleteFiles staged =>
    refine foldlM_invariant (fun state => (kv.commit state.2).CurrentDeletesOwned) staged (untouched rfl) ?_
    intro state row next _ soFar taken
    simp only [bind_eq_ok, pure_eq_ok] at taken
    obtain ⟨⟨registered, registeredBatch⟩, registers, rfl⟩ := taken
    obtain ⟨dataFile, _, registers⟩ := stageRegisterDeleteFile_ok registers
    exact soFar.register registers
  | inlineFileDeletions staged => exact untouched (stageInlineFileDeletions_changes staged).deleteFileMaps
  | registerInlinePayload _ staged => exact untouched (stageInlineTablePayload_changes staged).deleteFileMaps
  | registerInlinePayloadWithTable _ staged =>
    exact untouched (stageInlineTablePayloadWithTable_changes staged).deleteFileMaps

theorem CatalogKv.CurrentDeletesOwned.maintains (owned : kv.CurrentDeletesOwned)
    (maintains : operation.Maintains kv batch) : (kv.commit batch).CurrentDeletesOwned := by
  cases maintains with
  | expireSnapshots staged =>
    obtain ⟨_, rfl⟩ := stageExpiredSnapshots_changes staged
    exact owned
  | removeOldDataFiles staged =>
    exact CatalogKv.CurrentDeletesOwned.congr (show (kv.commit {}).CurrentDeletesOwned from owned)
      (stageRemoveOldDataFiles_deleteFileMaps staged)
  | removeOldDeleteFiles staged =>
    obtain ⟨rows, _, snapshots, _, rfl, rfl⟩ := stageRemoveOldDeleteFiles_ok staged
    refine CatalogKv.CurrentDeletesOwned.congr ?_ (stageRemoveUnreachableTables_changes kv _ _ snapshots).deleteFileMaps
    generalize rows.filter _ = removed
    have unchanged : (kv.commit (removed.foldl (stageRemoveOldDeleteFile kv) {})).currentDeleteFile =
        kv.currentDeleteFile := (foldl_stageRemoveOldDeleteFile_removes removed).current
    intro dataFileId row found
    rw [unchanged] at found
    exact owned _ _ found

end

theorem CatalogHistory.Reachable.currentDeletesOwned {Allowed : CatalogHistory → CatalogOperation → Prop}
    (reachable : CatalogHistory.Reachable Allowed history) : history.kv.CurrentDeletesOwned := by
  refine reachable.invariant (fun history => history.kv.CurrentDeletesOwned) ?_ ?_ ?_ ?_
  · intro lastOrder now dataFileId row found
    exact absurd found (by simp [CatalogHistory.start, initializeEmptyCatalog, CatalogKv.commit,
      CatalogKv.withGeneratedOrder, stageConflictWatermarksInitialized, stageSnapshot])
  · intro history owned
    exact owned
  · intro history operation batch owned _ commits
    exact owned.commits commits
  · intro history operation batch owned _ maintains
    exact owned.maintains maintains

/-! ## The registrations of one data file -/

/-- An accepted registration with the order of its commit. -/
structure DeleteFileRegistration where
  order : CatalogOrderId
  row : DeleteFileRow
  deriving DecidableEq, Repr

namespace DeleteFileRegistration

/-- Order of the first registration after the snapshot. -/
def orderAfter (log : List DeleteFileRegistration) (snapshotOrder : CatalogOrderId) : Option CatalogOrderId :=
  (log.find? fun registration => snapshotOrder < registration.order).map DeleteFileRegistration.order

/-- The registered file as readers of the snapshot see it: it reaches back to the first registration and lasts
until the next one. -/
def versionAt (log : List DeleteFileRegistration) (snapshotOrder : CatalogOrderId)
    (registration : DeleteFileRegistration) : DeleteFileRow :=
  { registration.row with
    validity := ⟨log.head?.elim registration.order DeleteFileRegistration.order, orderAfter log snapshotOrder⟩ }

/-- The file of the last registration up to the snapshot. -/
def inForceAt (log : List DeleteFileRegistration) (snapshotOrder : CatalogOrderId) : Option DeleteFileRow :=
  (log.filter fun registration => registration.order ≤ snapshotOrder).getLast?.map (versionAt log snapshotOrder)

def timelineKey (dataFileId : DataFileId) (registration : DeleteFileRegistration) : DeleteFileTimelineKey :=
  ⟨dataFileId, registration.order, registration.row.deleteFileId⟩

end DeleteFileRegistration

/-- What an accepted commit registers for the data file. -/
def registrationsFor (dataFileId : DataFileId) (kv : CatalogKv) (now : Int) (rows : List DeleteFileRow) :
    List DeleteFileRegistration :=
  match (commitRegisterDeleteFiles kv now rows).1 with
  | .error _ => []
  | .ok _ => (rows.filter fun row => row.dataFileId = dataFileId).map fun row => ⟨kv.generatedOrderId, row⟩

/-- The store after a sequence of commits of delete files, each with its time. -/
def registerDeleteFileCommits (kv : CatalogKv) (commits : List (Int × List DeleteFileRow)) : CatalogKv :=
  commits.foldl (fun kv commit => (commitRegisterDeleteFiles kv commit.1 commit.2).2) kv

/-- What the sequence of commits registers for the data file, oldest first. -/
def registrationLog (dataFileId : DataFileId) (kv : CatalogKv) :
    List (Int × List DeleteFileRow) → List DeleteFileRegistration
  | [] => []
  | (now, rows) :: rest =>
    registrationsFor dataFileId kv now rows ++
      registrationLog dataFileId (commitRegisterDeleteFiles kv now rows).2 rest

/-- The delete file entries of the data file, after the registrations of the log. -/
structure CatalogKv.Registered (kv : CatalogKv) (dataFileId : DataFileId) (log : List DeleteFileRegistration) :
    Prop where
  owner : ∀ registration ∈ log, registration.row.dataFileId = dataFileId
  ascending : log.Pairwise fun earlier later => earlier.order < later.order
  recent : ∀ registration ∈ log, registration.order ≤ kv.nextOrder
  timeline : ∀ {key row}, key.dataFileId = dataFileId →
    (kv.deleteFileTimeline.get? key = some row ↔
      ∃ registration ∈ log, key = registration.timelineKey dataFileId ∧
        row = registration.versionAt log registration.order)
  current : kv.currentDeleteFile.get? dataFileId =
    log.getLast?.map fun registration => registration.versionAt log registration.order

namespace DeleteFileRegistration

variable {log : List DeleteFileRegistration} {registration new : DeleteFileRegistration}

theorem orderAfter_append (log : List DeleteFileRegistration) (new : DeleteFileRegistration)
    (snapshotOrder : CatalogOrderId) :
    orderAfter (log ++ [new]) snapshotOrder =
      (orderAfter log snapshotOrder).or (if snapshotOrder < new.order then some new.order else none) := by
  unfold orderAfter
  rw [List.find?_append, Option.map_or]
  by_cases later : snapshotOrder < new.order
  · simp [later]
  · simp [later]

theorem orderAfter_eq_none (ended : ∀ other ∈ log, other.order ≤ snapshotOrder) : orderAfter log snapshotOrder = none := by
  simp only [orderAfter, Option.map_eq_none_iff, List.find?_eq_none]
  intro other member
  simpa using ended other member

theorem lt_of_orderAfter (next : orderAfter log snapshotOrder = some later) : snapshotOrder < later := by
  obtain ⟨other, found, rfl⟩ := Option.map_eq_some_iff.mp next
  simpa using List.find?_some found

/-- Between two registrations the next order does not change. -/
theorem orderAfter_congr (between : ∀ other ∈ log, first < other.order ↔ second < other.order) :
    orderAfter log first = orderAfter log second := by
  unfold orderAfter
  congr 1
  refine List.find?_congr ?_
  intro other member
  simpa using between other member

/-- A further registration closes the last version and leaves the earlier ones as they are. -/
theorem versionAt_append (member : registration ∈ log) (newer : ∀ other ∈ log, other.order < new.order) :
    registration.versionAt (log ++ [new]) registration.order =
      if orderAfter log registration.order = none then
        (registration.versionAt log registration.order).withEndOrder (some new.order)
      else registration.versionAt log registration.order := by
  cases log with
  | nil => exact absurd member List.not_mem_nil
  | cons first rest =>
    have later := newer registration member
    unfold versionAt
    rw [orderAfter_append]
    cases next : orderAfter (first :: rest) registration.order with
    | none => simp [later, DeleteFileRow.withEndOrder]
    | some order => simp

theorem versionAt_new (newer : ∀ other ∈ log, other.order < new.order) :
    new.versionAt (log ++ [new]) new.order =
      { new.row with validity := ⟨log.head?.elim new.order DeleteFileRegistration.order, none⟩ } := by
  have last : orderAfter (log ++ [new]) new.order = none := by
    refine orderAfter_eq_none ?_
    intro other member
    rcases List.mem_append.mp member with old | same
    · exact (newer other old).le
    · exact (List.mem_singleton.mp same) ▸ le_rfl
  unfold versionAt
  rw [last]
  cases log with
  | nil => rfl
  | cons first rest => rfl

end DeleteFileRegistration

/-! ## Reading the timeline -/

variable {last : DeleteFileRegistration}

section

variable {kv : CatalogKv} {dataFileId : DataFileId} {log : List DeleteFileRegistration}

/-- The last registration of an ascending log is the newest. -/
theorem DeleteFileRegistration.newest {registration : DeleteFileRegistration}
    (ascending : log.Pairwise fun earlier later => earlier.order < later.order)
    (last : log.getLast? = some registration) :
    registration ∈ log ∧ ∀ other ∈ log, other = registration ∨ other.order < registration.order := by
  obtain ⟨earlier, rfl⟩ := List.getLast?_eq_some_iff.mp last
  refine ⟨by simp, ?_⟩
  intro other member
  rcases List.mem_append.mp member with old | same
  · exact Or.inr ((List.pairwise_append.mp ascending).2.2 other old registration (by simp))
  · exact Or.inl (List.mem_singleton.mp same)

theorem DeleteFileRegistration.orderAfter_last
    (ascending : log.Pairwise fun earlier later => earlier.order < later.order) (isLast : log.getLast? = some last) :
    DeleteFileRegistration.orderAfter log last.order = none := by
  refine DeleteFileRegistration.orderAfter_eq_none ?_
  intro other member
  rcases (DeleteFileRegistration.newest ascending isLast).2 other member with rfl | earlier
  · exact le_rfl
  · exact earlier.le

theorem CatalogKv.Registered.ordered (registered : kv.Registered dataFileId log) {left right : DeleteFileRegistration}
    (leftMember : left ∈ log) (rightMember : right ∈ log) (same : left.order = right.order) : left = right := by
  have distinct : (log.map DeleteFileRegistration.order).Nodup :=
    List.pairwise_map.mpr (registered.ascending.imp ne_of_lt)
  exact List.inj_on_of_nodup_map distinct leftMember rightMember same

/-- The head of the log is its oldest registration. -/
theorem CatalogKv.Registered.reachesBack (registered : kv.Registered dataFileId log)
    {registration : DeleteFileRegistration} (member : registration ∈ log) (snapshotOrder : CatalogOrderId) :
    (registration.versionAt log snapshotOrder).validity.beginOrder ≤ registration.order := by
  have ascending := registered.ascending
  cases log with
  | nil => exact absurd member List.not_mem_nil
  | cons first rest =>
    rcases List.mem_cons.mp member with rfl | later
    · exact le_rfl
    · exact ((List.pairwise_cons.mp ascending).1 registration later).le

/-- The newest timeline entry up to the snapshot is the registration in force there. -/
theorem CatalogKv.Registered.loadDeleteFileAt (registered : kv.Registered dataFileId log)
    (snapshotOrder : CatalogOrderId) :
    loadDeleteFileAt kv dataFileId snapshotOrder = DeleteFileRegistration.inForceAt log snapshotOrder := by
  unfold DucklakeCatalog.loadDeleteFileAt DeleteFileRegistration.inForceAt
  cases last : (log.filter fun registration => registration.order ≤ snapshotOrder).getLast? with
  | none =>
    have empty := List.getLast?_eq_none_iff.mp last
    have missing : (kv.deleteFileTimeline.scan fun key =>
        key.dataFileId = dataFileId && key.order ≤ snapshotOrder) = [] := by
      refine OrderedMap.scan_eq_nil ?_
      intro key row found
      by_cases ofFile : key.dataFileId = dataFileId
      · obtain ⟨registration, member, rfl, _⟩ := (registered.timeline ofFile).mp found
        have late : snapshotOrder < registration.order := by
          simpa using List.filter_eq_nil_iff.mp empty registration member
        exact Bool.and_eq_false_iff.mpr (Or.inr (decide_eq_false (not_le.mpr late)))
      · simp [ofFile]
    simp [missing]
  | some registration =>
    obtain ⟨inside, newest⟩ := DeleteFileRegistration.newest (registered.ascending.filter _) last
    obtain ⟨member, visible⟩ := List.mem_filter.mp inside
    have begun : registration.order ≤ snapshotOrder := by simpa using visible
    -- No registration lies between the one found and the snapshot, so both see the same next one.
    have sameNext : DeleteFileRegistration.orderAfter log registration.order =
        DeleteFileRegistration.orderAfter log snapshotOrder := by
      refine DeleteFileRegistration.orderAfter_congr ?_
      intro other otherMember
      constructor
      · intro later
        by_contra notLater
        have upTo : other.order ≤ snapshotOrder := not_lt.mp notLater
        rcases newest other (List.mem_filter.mpr ⟨otherMember, by simpa using upTo⟩) with rfl | earlier
        · exact lt_irrefl _ later
        · exact lt_asymm later earlier
      · intro later
        exact lt_of_le_of_lt begun later
    have found : (kv.deleteFileTimeline.scan fun key =>
        key.dataFileId = dataFileId && key.order ≤ snapshotOrder).getLast? =
          some (registration.timelineKey dataFileId, registration.versionAt log snapshotOrder) := by
      refine OrderedMap.getLast?_scan_eq_some.mpr ⟨OrderedMap.mem_scan.mpr ⟨?_, ?_⟩, ?_⟩
      · refine (registered.timeline rfl).mpr ⟨registration, member, rfl, ?_⟩
        simp only [DeleteFileRegistration.versionAt, sameNext]
      · exact (Bool.and_eq_true _ _).mpr ⟨decide_eq_true rfl, decide_eq_true begun⟩
      · intro entry scanned
        obtain ⟨stored, range⟩ := OrderedMap.mem_scan.mp scanned
        simp only [Bool.and_eq_true, decide_eq_true_eq] at range
        obtain ⟨other, otherMember, sameKey, _⟩ := (registered.timeline range.1).mp stored
        rw [sameKey] at range ⊢
        have upTo : other.order ≤ snapshotOrder := range.2
        rcases newest other (List.mem_filter.mpr ⟨otherMember, by simpa using upTo⟩) with rfl | earlier
        · exact le_rfl
        · have before : other.timelineKey dataFileId < registration.timelineKey dataFileId :=
            DeleteFileTimelineKey.lt_of_order_lt rfl earlier
          exact before.le
    have answers : deleteFileCanAnswerSnapshot (registration.versionAt log snapshotOrder) registration.order
        snapshotOrder = true := by
      unfold deleteFileCanAnswerSnapshot
      rw [Bool.and_eq_true, ValidityWindow.isVisibleAt_iff]
      refine ⟨⟨(registered.reachesBack member _).trans begun, ?_⟩, by simpa using begun⟩
      intro endOrder ends
      exact DeleteFileRegistration.lt_of_orderAfter ends
    simp [found, answers, DeleteFileRegistration.timelineKey]

end

/-! ## One commit -/

/-- The stores hold the same delete file entries for the data file. -/
def CatalogKv.SameDeletesOf (dataFileId : DataFileId) (left right : CatalogKv) : Prop :=
  left.currentDeleteFile.get? dataFileId = right.currentDeleteFile.get? dataFileId ∧
    ∀ key, key.dataFileId = dataFileId → left.deleteFileTimeline.get? key = right.deleteFileTimeline.get? key

theorem deleteFileTimelineKeyForRow_file {kv : CatalogKv} {row : DeleteFileRow} {key : DeleteFileTimelineKey}
    (located : deleteFileTimelineKeyForRow kv row = some key) : key.dataFileId = row.dataFileId := by
  obtain ⟨entry, found, rfl⟩ := Option.map_eq_some_iff.mp located
  simpa using (OrderedMap.mem_scan.mp (List.mem_of_find?_eq_some found)).2

variable {rows : List DeleteFileRow}

section

variable {kv : CatalogKv} {batch next : KvBatch} {dataFile : DataFileRow} {row registered : DeleteFileRow}
  {order : CatalogOrderId} {dataFileId : DataFileId} {log : List DeleteFileRegistration}

/-- A registration for another data file. -/
theorem stageRegisterDeleteFileForDataFile_otherFile (owned : kv.CurrentDeletesOwned) (other : row.dataFileId ≠ dataFileId)
    (success : stageRegisterDeleteFileForDataFile kv batch dataFile row order = .ok (registered, next)) :
    CatalogKv.SameDeletesOf dataFileId (kv.commit next) (kv.commit batch) := by
  have current := (stageRegisterDeleteFileForDataFile_current success).2
  unfold stageRegisterDeleteFileForDataFile at success
  simp only [bind_eq_ok, pure_eq_ok, Prod.mk.injEq] at success
  obtain ⟨closed, closes, rfl, rfl⟩ := success
  have sameFile := (inheritCurrentDeleteBeginOrder_eq kv row).2.1
  refine ⟨?_, ?_⟩
  · rw [current, OrderedMap.get?_insert, if_neg (Ne.symm other)]
  intro key ofFile
  have notNew : key ≠ ⟨(inheritCurrentDeleteBeginOrder kv row).dataFileId, order,
      (inheritCurrentDeleteBeginOrder kv row).deleteFileId⟩ := by
    rintro rfl
    exact other (sameFile.symm.trans ofFile)
  have skipsNew : (kv.deleteFileTimeline.commit closed.deleteFileTimeline).get? key =
      (kv.commit (stageMaxFileIdWatermark kv (putRegisteredDeleteFile closed dataFile.tableId
        (inheritCurrentDeleteBeginOrder kv row) order)
        (inheritCurrentDeleteBeginOrder kv row).deleteFileId)).deleteFileTimeline.get? key := by
    simp [CatalogKv.commit, stageMaxFileIdWatermark, putRegisteredDeleteFile, OrderedMap.get?_insert, notNew]
  rw [← skipsNew]
  rcases stageCloseCurrentDeleteFile_ok closes with ⟨_, rfl⟩ | ⟨closing, isCurrent, _, _, rfl⟩
  · rfl
  · cases located : deleteFileTimelineKeyForRow kv (closing.withEndOrder (some order)) with
    | none => simp [CatalogKv.commit, putClosedDeleteFile, located]
    | some place =>
      have placed : place.dataFileId = row.dataFileId :=
        (deleteFileTimelineKeyForRow_file located).trans ((owned _ _ isCurrent).trans sameFile)
      have notClosed : key ≠ place := by
        rintro rfl
        exact other (placed.symm.trans ofFile)
      simp [CatalogKv.commit, putClosedDeleteFile, located, OrderedMap.get?_insert, notClosed]

/-- The version the registration replaces, found under its own key. -/
theorem CatalogKv.Registered.locate (registered : kv.Registered dataFileId log)
    (distinct : (log.map fun registration => registration.row.deleteFileId).Nodup) (member : last ∈ log) :
    deleteFileTimelineKeyForRow kv ((last.versionAt log last.order).withEndOrder (some order)) =
      some (last.timelineKey dataFileId) := by
  refine deleteFileTimelineKeyForRow_of_only ((registered.timeline rfl).mpr ⟨last, member, rfl, rfl⟩)
    (registered.owner last member).symm rfl ?_
  intro key stored found ofFile sameId
  obtain ⟨other, otherMember, sameKey, rfl⟩ :=
    (registered.timeline (Eq.trans ofFile (registered.owner last member))).mp found
  have same : other = last := List.inj_on_of_nodup_map distinct otherMember member sameId
  exact same ▸ sameKey

/-- The row a registration for the data file stores, before it inherits a begin order. -/
def DeleteFileRegistration.proposed (new : DeleteFileRegistration) : DeleteFileRow :=
  { new.row with validity := ⟨new.order, none⟩ }

theorem CatalogKv.Registered.inherits (registers : kv.Registered dataFileId log) {new : DeleteFileRegistration}
    (newer : ∀ registration ∈ log, registration.order < new.order) (ofFile : new.row.dataFileId = dataFileId)
    (different : ∀ last, log.getLast? = some last → last.row.deleteFileId ≠ new.row.deleteFileId) :
    inheritCurrentDeleteBeginOrder kv new.proposed = new.versionAt (log ++ [new]) new.order := by
  have current : kv.currentDeleteFile.get? new.proposed.dataFileId =
    log.getLast?.map fun registration => registration.versionAt log registration.order := ofFile ▸ registers.current
  rw [DeleteFileRegistration.versionAt_new newer]
  unfold inheritCurrentDeleteBeginOrder
  rw [current]
  cases isLast : log.getLast? with
  | none =>
    obtain rfl := List.getLast?_eq_none_iff.mp isLast
    rfl
  | some last =>
    have otherId : (last.versionAt log last.order).deleteFileId ≠ new.proposed.deleteFileId := different last isLast
    simp only [Option.map_some, if_neg otherId]
    cases log with
    | nil => simp at isLast
    | cons first rest => rfl

/-- A registration for the data file itself: the row it files and the version it closes. -/
theorem stageRegisterDeleteFileForDataFile_ownFile (registers : kv.Registered dataFileId log)
    (distinct : (log.map fun registration => registration.row.deleteFileId).Nodup) {new : DeleteFileRegistration}
    (newer : ∀ registration ∈ log, registration.order < new.order) (ofFile : new.row.dataFileId = dataFileId)
    (success : stageRegisterDeleteFileForDataFile kv batch dataFile new.proposed new.order = .ok (registered, next)) :
    registered = new.versionAt (log ++ [new]) new.order ∧
      (kv.commit next).deleteFileTimeline =
        (log.getLast?.elim (kv.commit batch).deleteFileTimeline fun last =>
          (kv.commit batch).deleteFileTimeline.insert (last.timelineKey dataFileId)
            ((last.versionAt log last.order).withEndOrder (some new.order))).insert
          (new.timelineKey dataFileId) registered := by
  obtain ⟨same, _⟩ := stageRegisterDeleteFileForDataFile_current success
  obtain ⟨sameId, sameFile, _, _⟩ := inheritCurrentDeleteBeginOrder_eq kv new.proposed
  rw [← same] at sameId sameFile
  replace sameId : registered.deleteFileId = new.row.deleteFileId := sameId
  replace sameFile : registered.dataFileId = dataFileId := Eq.trans sameFile ofFile
  have current : kv.currentDeleteFile.get? registered.dataFileId =
    log.getLast?.map fun registration => registration.versionAt log registration.order := sameFile ▸ registers.current
  unfold stageRegisterDeleteFileForDataFile at success
  simp only [← same, bind_eq_ok, pure_eq_ok, Prod.mk.injEq, true_and] at success
  obtain ⟨closed, closes, rfl⟩ := success
  have files : (kv.commit (stageMaxFileIdWatermark kv (putRegisteredDeleteFile closed dataFile.tableId registered
      new.order) registered.deleteFileId)).deleteFileTimeline =
      (kv.commit closed).deleteFileTimeline.insert (new.timelineKey dataFileId) registered := by
    simp [CatalogKv.commit, stageMaxFileIdWatermark, putRegisteredDeleteFile, DeleteFileRegistration.timelineKey,
      sameId, sameFile]
  rw [files]
  rcases stageCloseCurrentDeleteFile_ok closes with ⟨missing, rfl⟩ | ⟨closing, isCurrent, different, _, rfl⟩
  · rw [current, Option.map_eq_none_iff] at missing
    rw [missing]
    exact ⟨same.trans (registers.inherits newer ofFile (by simp [missing])), rfl⟩
  · obtain ⟨last, isLast, rfl⟩ := Option.map_eq_some_iff.mp (current.symm.trans isCurrent)
    obtain ⟨member, _⟩ := DeleteFileRegistration.newest registers.ascending isLast
    have otherId : last.row.deleteFileId ≠ new.row.deleteFileId := fun ids => different (Eq.trans ids sameId.symm)
    have located : deleteFileTimelineKeyForRow kv ((last.versionAt log last.order).withEndOrder (some new.order)) =
        some (last.timelineKey dataFileId) := registers.locate distinct member
    rw [isLast]
    refine ⟨same.trans (registers.inherits newer ofFile (by simpa [isLast] using otherId)), ?_⟩
    simp [CatalogKv.commit, putClosedDeleteFile, located]

/-- The timeline with the last version closed and the new registration filed. -/
def DeleteFileRegistration.extend (timeline : OrderedMap DeleteFileTimelineKey DeleteFileRow) (dataFileId : DataFileId)
    (log : List DeleteFileRegistration) (new : DeleteFileRegistration) :
    OrderedMap DeleteFileTimelineKey DeleteFileRow :=
  (log.getLast?.elim timeline fun last =>
    timeline.insert (last.timelineKey dataFileId)
      ((last.versionAt log last.order).withEndOrder (some new.order))).insert
    (new.timelineKey dataFileId) (new.versionAt (log ++ [new]) new.order)

variable {after : CatalogKv} {now : Int} {result : List DeleteFileRow}

/-- The log grows by the registration. -/
theorem CatalogKv.Registered.append (registers : kv.Registered dataFileId log) {new : DeleteFileRegistration}
    (newer : ∀ registration ∈ log, registration.order < new.order) (ofFile : new.row.dataFileId = dataFileId)
    (recent : new.order ≤ after.nextOrder)
    (current : after.currentDeleteFile.get? dataFileId = some (new.versionAt (log ++ [new]) new.order))
    (timeline : ∀ key, key.dataFileId = dataFileId → after.deleteFileTimeline.get? key =
      (DeleteFileRegistration.extend kv.deleteFileTimeline dataFileId log new).get? key) :
    after.Registered dataFileId (log ++ [new]) := by
  have orders {registration : DeleteFileRegistration} (member : registration ∈ log) :
      registration.timelineKey dataFileId ≠ new.timelineKey dataFileId := by
    intro same
    exact ne_of_lt (newer registration member) (congrArg DeleteFileTimelineKey.order same)
  refine ⟨?_, ?_, ?_, ?_, ?_⟩
  · intro registration member
    rcases List.mem_append.mp member with old | same
    · exact registers.owner registration old
    · exact (List.mem_singleton.mp same) ▸ ofFile
  · refine List.pairwise_append.mpr ⟨registers.ascending, List.pairwise_singleton _ _, ?_⟩
    intro earlier old later same
    exact (List.mem_singleton.mp same) ▸ newer earlier old
  · intro registration member
    rcases List.mem_append.mp member with old | same
    · exact (newer registration old).le.trans recent
    · exact (List.mem_singleton.mp same) ▸ recent
  · intro key row ofKey
    rw [timeline key ofKey, DeleteFileRegistration.extend, OrderedMap.get?_insert]
    by_cases isNew : key = new.timelineKey dataFileId
    · rw [if_pos isNew, Option.some.injEq]
      constructor
      · intro same
        exact ⟨new, by simp, isNew, same.symm⟩
      · rintro ⟨registration, member, sameKey, rfl⟩
        rcases List.mem_append.mp member with old | same
        · exact absurd (sameKey.symm.trans isNew) (orders old)
        · rw [List.mem_singleton.mp same]
    · rw [if_neg isNew]
      have onlyOld : (∃ registration ∈ log ++ [new], key = registration.timelineKey dataFileId ∧
            row = registration.versionAt (log ++ [new]) registration.order) ↔
          ∃ registration ∈ log, key = registration.timelineKey dataFileId ∧
            row = registration.versionAt (log ++ [new]) registration.order := by
        simp only [List.mem_append, List.mem_singleton]
        constructor
        · rintro ⟨registration, old | rfl, sameKey, sameRow⟩
          · exact ⟨registration, old, sameKey, sameRow⟩
          · exact absurd sameKey isNew
        · rintro ⟨registration, old, sameKey, sameRow⟩
          exact ⟨registration, Or.inl old, sameKey, sameRow⟩
      rw [onlyOld]
      cases isLast : log.getLast? with
      | none =>
        obtain rfl := List.getLast?_eq_none_iff.mp isLast
        simpa using registers.timeline ofKey
      | some last =>
        obtain ⟨lastMember, newest⟩ := DeleteFileRegistration.newest registers.ascending isLast
        have openLast := DeleteFileRegistration.orderAfter_last registers.ascending isLast
        simp only [Option.elim_some, OrderedMap.get?_insert]
        by_cases ofLast : key = last.timelineKey dataFileId
        · rw [if_pos ofLast, Option.some.injEq]
          have closes := DeleteFileRegistration.versionAt_append lastMember newer
          rw [if_pos openLast] at closes
          constructor
          · intro same
            exact ⟨last, lastMember, ofLast, same.symm.trans closes.symm⟩
          · rintro ⟨registration, member, sameKey, rfl⟩
            have sameOrder := congrArg DeleteFileTimelineKey.order (sameKey.symm.trans ofLast)
            obtain rfl := registers.ordered member lastMember sameOrder
            exact closes.symm
        · rw [if_neg ofLast, registers.timeline ofKey]
          refine exists_congr ?_
          intro registration
          refine and_congr_right ?_
          intro member
          refine and_congr_right ?_
          intro sameKey
          have earlier : registration.order < last.order := by
            rcases newest registration member with rfl | earlier
            · exact absurd sameKey ofLast
            · exact earlier
          have stillClosed : DeleteFileRegistration.orderAfter log registration.order ≠ none := by
            simp only [DeleteFileRegistration.orderAfter, ne_eq, Option.map_eq_none_iff, List.find?_eq_none, not_forall]
            exact ⟨last, lastMember, by simpa using earlier⟩
          rw [DeleteFileRegistration.versionAt_append member newer, if_neg stillClosed]
  · rw [current, List.getLast?_append]
    rfl

theorem CatalogKv.Registered.congr (registers : kv.Registered dataFileId log)
    (same : CatalogKv.SameDeletesOf dataFileId after kv) (later : kv.nextOrder ≤ after.nextOrder) :
    after.Registered dataFileId log where
  owner := registers.owner
  ascending := registers.ascending
  recent := fun registration member => (registers.recent registration member).trans later
  timeline := fun ofFile => by rw [same.2 _ ofFile, registers.timeline ofFile]
  current := same.1.trans registers.current

/-- Registrations for other data files only. -/
theorem foldlM_stageRegisterDeleteFile_otherFiles (owned : kv.CurrentDeletesOwned)
    (others : ∀ row ∈ rows, row.dataFileId ≠ dataFileId) {state finish : List DeleteFileRow × KvBatch}
    (success : rows.foldlM (fun (registered, batch) row => do
        let (row, batch) ← stageRegisterDeleteFile kv batch { row with validity := ⟨order, none⟩ } order
        return (registered ++ [row], batch)) state = .ok finish) :
    CatalogKv.SameDeletesOf dataFileId (kv.commit finish.2) (kv.commit state.2) := by
  refine foldlM_invariant (fun reached : List DeleteFileRow × KvBatch =>
    CatalogKv.SameDeletesOf dataFileId (kv.commit reached.2) (kv.commit state.2)) success ⟨rfl, fun _ _ => rfl⟩ ?_
  intro reached row next member soFar taken
  simp only [bind_eq_ok, pure_eq_ok] at taken
  obtain ⟨⟨registered, registeredBatch⟩, registers, rfl⟩ := taken
  obtain ⟨dataFile, _, registers⟩ := stageRegisterDeleteFile_ok registers
  have other : ({ row with validity := ⟨order, none⟩ } : DeleteFileRow).dataFileId ≠ dataFileId := others row member
  have kept := stageRegisterDeleteFileForDataFile_otherFile owned other registers
  exact ⟨kept.1.trans soFar.1, fun key ofFile => (kept.2 key ofFile).trans (soFar.2 key ofFile)⟩

/-- A commit adds the registrations it carries for the data file. -/
theorem stageRegisterDeleteFiles_registered (registers : kv.Registered dataFileId log) (owned : kv.CurrentDeletesOwned)
    (single : (rows.filter fun row => row.dataFileId = dataFileId).length ≤ 1)
    (distinct : (log.map fun registration => registration.row.deleteFileId).Nodup)
    (staged : stageRegisterDeleteFiles kv now rows kv.generatedOrderId = .ok (result, batch)) :
    (kv.withGeneratedOrder.commit batch).Registered dataFileId (log ++
      (rows.filter fun row => row.dataFileId = dataFileId).map fun row => ⟨kv.generatedOrderId, row⟩) := by
  have newer : ∀ registration ∈ log, registration.order < kv.generatedOrderId := by
    intro registration member
    exact Nat.lt_succ_of_le (registers.recent registration member)
  unfold stageRegisterDeleteFiles at staged
  extract_lets snapshot at staged
  cases ofFile : rows.filter fun row => row.dataFileId = dataFileId with
  | nil =>
    have others : ∀ row ∈ rows, row.dataFileId ≠ dataFileId := by
      intro row member
      simpa using List.filter_eq_nil_iff.mp ofFile row member
    have kept := foldlM_stageRegisterDeleteFile_otherFiles owned others staged
    rw [List.map_nil, List.append_nil]
    exact registers.congr kept (Nat.le_succ _)
  | cons row rest =>
    obtain rfl : rest = [] := by
      rw [ofFile] at single
      simpa using single
    obtain ⟨before, after, rfl, othersBefore, isFile, noneAfter⟩ := List.filter_eq_cons_iff.mp ofFile
    rw [List.foldlM_append, bind_eq_ok] at staged
    obtain ⟨opening, opens, staged⟩ := staged
    rw [List.foldlM_cons, bind_eq_ok] at staged
    obtain ⟨filed, files, staged⟩ := staged
    simp only [bind_eq_ok, pure_eq_ok] at files
    obtain ⟨⟨registered, registeredBatch⟩, files, rfl⟩ := files
    obtain ⟨dataFile, _, files⟩ := stageRegisterDeleteFile_ok files
    have own : row.dataFileId = dataFileId := by simpa using isFile
    have untouched : CatalogKv.SameDeletesOf dataFileId (kv.commit opening.2) kv :=
      foldlM_stageRegisterDeleteFile_otherFiles owned (by simpa using othersBefore) opens
    have kept : CatalogKv.SameDeletesOf dataFileId (kv.commit batch) (kv.commit registeredBatch) :=
      foldlM_stageRegisterDeleteFile_otherFiles owned (by simpa using List.filter_eq_nil_iff.mp noneAfter) staged
    have current := (stageRegisterDeleteFileForDataFile_current files).2
    let new : DeleteFileRegistration := ⟨kv.generatedOrderId, row⟩
    have files : stageRegisterDeleteFileForDataFile kv opening.2 dataFile new.proposed new.order =
      .ok (registered, registeredBatch) := files
    obtain ⟨rfl, timeline⟩ := stageRegisterDeleteFileForDataFile_ownFile registers distinct newer own files
    refine registers.append newer own le_rfl ?_ ?_
    · refine kept.1.trans ?_
      rw [current, ← own]
      exact OrderedMap.get?_insert_self _ _ _
    · intro key ofKey
      refine (kept.2 key ofKey).trans ?_
      rw [timeline, DeleteFileRegistration.extend, OrderedMap.get?_insert, OrderedMap.get?_insert]
      split
      · rfl
      · cases log.getLast? with
        | none => exact untouched.2 key ofKey
        | some last =>
          simp only [Option.elim_some, OrderedMap.get?_insert]
          split
          · rfl
          · exact untouched.2 key ofKey

/-- The registrations of the log are not newer than the latest snapshot, and the change index names them. -/
def CatalogKv.Announces (kv : CatalogKv) (dataFileId : DataFileId) (log : List DeleteFileRegistration) : Prop :=
  ∀ registration ∈ log, (∃ latest, latestSnapshot kv = some latest ∧ registration.order ≤ latest.order) ∧
    ∀ dataFile, kv.dataFile.get? dataFileId = some dataFile →
      kv.orderDeleteFileChange.get? ⟨registration.order, dataFile.tableId, registration.row.deleteFileId⟩ = some ()

theorem stageRegisterDeleteFileForDataFile_orderChange
    (success : stageRegisterDeleteFileForDataFile kv batch dataFile row order = .ok (registered, next)) :
    (kv.commit next).orderDeleteFileChange =
      (kv.commit batch).orderDeleteFileChange.insert ⟨order, dataFile.tableId, row.deleteFileId⟩ () := by
  unfold stageRegisterDeleteFileForDataFile at success
  simp only [bind_eq_ok, pure_eq_ok, Prod.mk.injEq] at success
  obtain ⟨closed, closes, rfl, rfl⟩ := success
  have sameId := (inheritCurrentDeleteBeginOrder_eq kv row).1
  rcases stageCloseCurrentDeleteFile_ok closes with ⟨_, rfl⟩ | ⟨current, _, _, _, rfl⟩
  · simp [CatalogKv.commit, stageMaxFileIdWatermark, putRegisteredDeleteFile, sameId]
  · simp [CatalogKv.commit, stageMaxFileIdWatermark, putRegisteredDeleteFile, putClosedDeleteFile, sameId]

theorem stageRegisterDeleteFiles_announces (announces : kv.Announces dataFileId log)
    (older : ∀ registration ∈ log, registration.order ≤ kv.nextOrder)
    (staged : stageRegisterDeleteFiles kv now rows kv.generatedOrderId = .ok (result, batch)) :
    (kv.withGeneratedOrder.commit batch).Announces dataFileId (log ++
      (rows.filter fun row => row.dataFileId = dataFileId).map fun row => ⟨kv.generatedOrderId, row⟩) := by
  unfold stageRegisterDeleteFiles at staged
  extract_lets snapshot at staged
  have untouched : (stageSnapshot {} snapshot).ChangesDeleteFiles batch := by
    refine foldlM_invariant (fun state => (stageSnapshot {} snapshot).ChangesDeleteFiles state.2) staged (.refl _) ?_
    intro state row next _ soFar taken
    simp only [bind_eq_ok, pure_eq_ok] at taken
    obtain ⟨⟨registered, registeredBatch⟩, registers, rfl⟩ := taken
    obtain ⟨dataFile, _, registers⟩ := stageRegisterDeleteFile_ok registers
    exact soFar.trans (stageRegisterDeleteFileForDataFile_changes registers)
  have sameFiles : (kv.withGeneratedOrder.commit batch).dataFile = kv.dataFile := by
    obtain ⟨_, _, _, _, _, _, _, same⟩ := untouched
    rw [same]
    rfl
  have isLatest : latestSnapshot (kv.withGeneratedOrder.commit batch) = some snapshot := by
    obtain ⟨_, _, _, _, _, _, _, same⟩ := untouched
    rw [same]
    exact OrderedMap.get?_insert_self _ _ _
  have step {state next : List DeleteFileRow × KvBatch} {row : DeleteFileRow}
      (taken : (do
        let (row, batch) ← stageRegisterDeleteFile kv state.2 { row with validity := ⟨kv.generatedOrderId, none⟩ }
          kv.generatedOrderId
        return (state.1 ++ [row], batch)) = .ok next) :
      ∃ dataFile, kv.dataFile.get? row.dataFileId = some dataFile ∧ (kv.commit next.2).orderDeleteFileChange =
        (kv.commit state.2).orderDeleteFileChange.insert ⟨kv.generatedOrderId, dataFile.tableId, row.deleteFileId⟩ () := by
    simp only [bind_eq_ok, pure_eq_ok] at taken
    obtain ⟨⟨registered, registeredBatch⟩, registers, rfl⟩ := taken
    obtain ⟨dataFile, stored, registers⟩ := stageRegisterDeleteFile_ok registers
    have inserted := stageRegisterDeleteFileForDataFile_orderChange registers
    exact ⟨dataFile, stored, inserted⟩
  have kept {key : OrderTableKey} (found : kv.orderDeleteFileChange.get? key = some ()) :
      (kv.commit batch).orderDeleteFileChange.get? key = some () := by
    refine foldlM_invariant (fun state : List DeleteFileRow × KvBatch =>
      (kv.commit state.2).orderDeleteFileChange.get? key = some ()) staged found ?_
    intro state row next _ soFar taken
    obtain ⟨dataFile, _, inserted⟩ := step taken
    rw [inserted, OrderedMap.get?_insert]
    split
    · rfl
    · exact soFar
  have filed := foldlM_establishes (fun state row => ∃ dataFile, kv.dataFile.get? row.dataFileId = some dataFile ∧
    (kv.commit state.2).orderDeleteFileChange.get? ⟨kv.generatedOrderId, dataFile.tableId, row.deleteFileId⟩ = some ())
    staged (by
      intro state row next taken
      obtain ⟨dataFile, stored, inserted⟩ := step taken
      exact ⟨dataFile, stored, by rw [inserted]; exact OrderedMap.get?_insert_self _ _ _⟩) (by
      rintro state row next earlier taken ⟨dataFile, stored, soFar⟩
      obtain ⟨_, _, inserted⟩ := step taken
      refine ⟨dataFile, stored, ?_⟩
      rw [inserted, OrderedMap.get?_insert]
      split
      · rfl
      · exact soFar)
  intro registration member
  rcases List.mem_append.mp member with old | new
  · refine ⟨⟨snapshot, isLatest, (older registration old).trans (Nat.le_succ _)⟩, ?_⟩
    intro dataFile stored
    rw [sameFiles] at stored
    exact kept ((announces registration old).2 dataFile stored)
  · obtain ⟨row, listed, rfl⟩ := List.mem_map.mp new
    obtain ⟨inRows, ofFile⟩ := List.mem_filter.mp listed
    obtain ⟨loaded, found, entry⟩ := filed row inRows
    refine ⟨⟨snapshot, isLatest, le_rfl⟩, ?_⟩
    intro dataFile stored
    have own : row.dataFileId = dataFileId := by simpa using ofFile
    rw [sameFiles, ← own] at stored
    obtain rfl := Option.some.inj (found.symm.trans stored)
    exact entry

end

/-! ## Sequences of commits -/

section

variable {kv : CatalogKv} {dataFileId : DataFileId} {log : List DeleteFileRegistration}

/-- No delete file was registered for the data file. -/
def CatalogKv.WithoutDeletesOf (kv : CatalogKv) (dataFileId : DataFileId) : Prop :=
  kv.currentDeleteFile.get? dataFileId = none ∧
    (kv.deleteFileTimeline.scan fun key => key.dataFileId = dataFileId) = []

instance : Decidable (CatalogKv.WithoutDeletesOf kv dataFileId) := inferInstanceAs (Decidable (_ ∧ _))

theorem CatalogKv.WithoutDeletesOf.registered (without : kv.WithoutDeletesOf dataFileId) :
    kv.Registered dataFileId [] where
  owner := by simp
  ascending := List.Pairwise.nil
  recent := by simp
  timeline := by
    intro key row ofFile
    have missing : kv.deleteFileTimeline.get? key ≠ some row := by
      intro found
      have scanned : (key, row) ∈ kv.deleteFileTimeline.scan fun key => key.dataFileId = dataFileId :=
        OrderedMap.mem_scan.mpr ⟨found, by simpa using ofFile⟩
      simp [without.2] at scanned
    simp [missing]
  current := without.1

/-- What a sequence of commits keeps about the data file's delete files. -/
structure CatalogKv.Follows (kv : CatalogKv) (dataFileId : DataFileId) (log : List DeleteFileRegistration) : Prop where
  registered : kv.Registered dataFileId log
  announces : kv.Announces dataFileId log
  owned : kv.CurrentDeletesOwned

theorem CatalogKv.Follows.commit (follows : kv.Follows dataFileId log) (now : Int)
    (single : (rows.filter fun row => row.dataFileId = dataFileId).length ≤ 1)
    (distinct : (log.map fun registration => registration.row.deleteFileId).Nodup) :
    (commitRegisterDeleteFiles kv now rows).2.Follows dataFileId (log ++ registrationsFor dataFileId kv now rows) := by
  unfold registrationsFor commitRegisterDeleteFiles
  split_ifs with empty
  · subst empty
    simpa using follows
  · rcases commitWith_cases kv (stageRegisterDeleteFiles kv now rows) with ⟨failure, same⟩ | ⟨result, batch, staged, same⟩
    · rw [same]
      rw [List.append_nil]
      exact ⟨follows.registered.congr ⟨rfl, fun _ _ => rfl⟩ (Nat.le_succ _), follows.announces, follows.owned⟩
    · rw [same]
      exact ⟨stageRegisterDeleteFiles_registered follows.registered follows.owned single distinct staged,
        stageRegisterDeleteFiles_announces follows.announces follows.registered.recent staged,
        follows.owned.commits (.registerDeleteFiles staged)⟩

theorem CatalogKv.Follows.run (follows : kv.Follows dataFileId log) {commits : List (Int × List DeleteFileRow)}
    (single : ∀ commit ∈ commits, (commit.2.filter fun row => row.dataFileId = dataFileId).length ≤ 1)
    (distinct : ((log ++ registrationLog dataFileId kv commits).map fun registration =>
      registration.row.deleteFileId).Nodup) :
    (registerDeleteFileCommits kv commits).Follows dataFileId (log ++ registrationLog dataFileId kv commits) := by
  induction commits generalizing kv log with
  | nil =>
    rw [registrationLog, List.append_nil]
    exact follows
  | cons commit rest ih =>
    rw [registrationLog, ← List.append_assoc] at distinct ⊢
    have before : (log.map fun registration => registration.row.deleteFileId).Nodup := by
      rw [List.append_assoc, List.map_append] at distinct
      exact (List.nodup_append.mp distinct).1
    have next := follows.commit commit.1 (single commit List.mem_cons_self) before
    exact ih next (fun later member => single later (List.mem_cons_of_mem _ member)) distinct

/-- Up to date with every registration, the version in force is the current one. -/
theorem CatalogKv.Registered.inForce_latest (registered : kv.Registered dataFileId log)
    (covers : ∀ registration ∈ log, registration.order ≤ snapshotOrder) :
    DeleteFileRegistration.inForceAt log snapshotOrder = currentDeleteFileFor kv dataFileId := by
  have all : log.filter (fun registration => registration.order ≤ snapshotOrder) = log :=
    List.filter_eq_self.mpr fun registration member => by simpa using covers registration member
  unfold DeleteFileRegistration.inForceAt currentDeleteFileFor
  rw [all, registered.current]
  cases isLast : log.getLast? with
  | none => rfl
  | some last =>
    have openHere := DeleteFileRegistration.orderAfter_eq_none covers
    have openLast := DeleteFileRegistration.orderAfter_last registered.ascending isLast
    simp [DeleteFileRegistration.versionAt, openHere, openLast, Option.filter]

theorem CatalogKv.Follows.attached {dataFile : DataFileRow} (follows : kv.Follows dataFile.dataFileId log)
    (stored : kv.dataFile.get? dataFile.dataFileId = some dataFile) {latest : SnapshotRow}
    (isLatest : latestSnapshot kv = some latest) {dataFiles : List DataFileRow} {attached : AttachedDataFile}
    (member : attached ∈ attachCurrentDeleteFiles kv dataFiles) (same : attached.dataFile = dataFile) :
    attached.deleteFile = DeleteFileRegistration.inForceAt log latest.order := by
  have covers : ∀ registration ∈ log, registration.order ≤ latest.order := by
    intro registration inLog
    obtain ⟨⟨newest, isNewest, upTo⟩, _⟩ := follows.announces registration inLog
    obtain rfl := Option.some.inj (isLatest.symm.trans isNewest)
    exact upTo
  unfold attachCurrentDeleteFiles at member
  simp only [isLatest, Option.any_some] at member
  split at member
  · rename_i unchanged
    obtain ⟨listed, inFiles, rfl⟩ := List.mem_map.mp member
    obtain rfl : listed = dataFile := same
    -- A registration would show in the change index, which is empty for the table.
    have empty : log = [] := by
      refine List.eq_nil_iff_forall_not_mem.mpr ?_
      intro registration inLog
      have changed := (follows.announces registration inLog).2 listed stored
      have scanned : ((⟨registration.order, listed.tableId, registration.row.deleteFileId⟩, ()) : OrderTableKey × Unit) ∈
          kv.orderDeleteFileChange.scan fun key => key.order ≤ latest.order :=
        OrderedMap.mem_scan.mpr ⟨changed, decide_eq_true (covers registration inLog)⟩
      have known : deleteFileChangesExistForFilesAt kv dataFiles latest.order = true :=
        List.any_eq_true.mpr ⟨listed, inFiles, List.any_eq_true.mpr ⟨_, scanned, decide_eq_true rfl⟩⟩
      simp [known] at unchanged
    simp [empty, DeleteFileRegistration.inForceAt]
  · obtain ⟨listed, _, rfl⟩ := List.mem_map.mp member
    obtain rfl : listed = dataFile := same
    exact (follows.registered.inForce_latest covers).symm

end

/-- After any sequence of commits of delete files the snapshot order decides which registration a reader of the data
file sees, and the newest one is what the current entry attaches. -/
theorem registerDeleteFileCommits_timeline {Allowed : CatalogHistory → CatalogOperation → Prop}
    {history : CatalogHistory} (reachable : history.Reachable Allowed) (dataFile : DataFileRow)
    (commits : List (Int × List DeleteFileRow)) (without : history.kv.WithoutDeletesOf dataFile.dataFileId)
    (single : ∀ commit ∈ commits, (commit.2.filter fun row => row.dataFileId = dataFile.dataFileId).length ≤ 1)
    (fresh : ((registrationLog dataFile.dataFileId history.kv commits).map fun registration =>
      registration.row.deleteFileId).Nodup) :
    (registrationLog dataFile.dataFileId history.kv commits).Pairwise
        (fun earlier later => earlier.order < later.order) ∧
      (∀ snapshotOrder, loadDeleteFileAt (registerDeleteFileCommits history.kv commits) dataFile.dataFileId
        snapshotOrder =
          DeleteFileRegistration.inForceAt (registrationLog dataFile.dataFileId history.kv commits) snapshotOrder) ∧
      ∀ latest dataFiles attached,
        (registerDeleteFileCommits history.kv commits).dataFile.get? dataFile.dataFileId = some dataFile →
        latestSnapshot (registerDeleteFileCommits history.kv commits) = some latest →
        attached ∈ attachCurrentDeleteFiles (registerDeleteFileCommits history.kv commits) dataFiles →
        attached.dataFile = dataFile →
        attached.deleteFile = loadDeleteFileAt (registerDeleteFileCommits history.kv commits) dataFile.dataFileId
          latest.order := by
  have opening : history.kv.Follows dataFile.dataFileId [] :=
    ⟨without.registered, fun _ member => absurd member List.not_mem_nil, reachable.currentDeletesOwned⟩
  have follows := opening.run single fresh
  rw [List.nil_append] at follows
  refine ⟨follows.registered.ascending, follows.registered.loadDeleteFileAt, ?_⟩
  intro latest dataFiles attached stored isLatest member same
  rw [follows.registered.loadDeleteFileAt]
  exact follows.attached stored isLatest member same

def deletedFrom : DataFileRow :=
  { dataFileId := 1, tableId := 1, path := "", recordCount := 10, fileSizeBytes := 1, rowIdStart := 0,
    rowIdStartKnown := true, validity := ⟨autoOrder, none⟩ }

/-- Three registrations, the second next to one for a data file that does not exist, which rejects the commit. -/
def replacedDeletes : List (Int × List DeleteFileRow) :=
  let deletes (deleteFileId dataFileId : Nat) : DeleteFileRow :=
    { deleteFileId, dataFileId, path := "", recordCount := 1, fileSizeBytes := 1, validity := ⟨autoOrder, none⟩ }
  [(0, [deletes 10 1]), (0, [deletes 11 1, deletes 12 7]), (0, [deletes 13 1])]

theorem registerDeleteFileCommits_timeline_replaced :
    let kv := ((CatalogHistory.start 0 0).run [.appendDataFiles 0 [deletedFrom] []]).kv
    (registrationLog 1 kv replacedDeletes).map DeleteFileRegistration.order = [3, 5] ∧
      loadDeleteFileAt (registerDeleteFileCommits kv replacedDeletes) 1 4 =
        DeleteFileRegistration.inForceAt (registrationLog 1 kv replacedDeletes) 4 :=
  ⟨by decide +kernel,
    (registerDeleteFileCommits_timeline
      (CatalogHistory.Reachable.run (@CatalogHistory.Reachable.start CatalogHistory.FreshFileIds 0 0) (by decide +kernel))
      deletedFrom replacedDeletes (by decide +kernel) (by decide +kernel) (by decide +kernel)).2.1 4⟩

end DucklakeCatalog
