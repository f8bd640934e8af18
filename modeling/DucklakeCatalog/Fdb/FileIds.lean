import DucklakeCatalog.Fdb.Effects
import DucklakeCatalog.Fdb.InlineCommits

/-! The ids of new files: the watermark they are reserved from, and the renaming
of a mutation that proposes other ones. -/
namespace DucklakeCatalog.Fdb

open KeyedStore

/-! ## The watermark -/

/-- The watermark has reached the id, or the end of all ids. -/
def FileIdTaken (kv : CatalogKv) (fileId : Nat) : Prop :=
  ∃ watermark, kv.conflictMaxFileId.get? () = some watermark ∧ (fileId ≤ watermark ∨ u64Max ≤ watermark)

def KeepsFileIds (before after : CatalogKv) : Prop := ∀ fileId, FileIdTaken before fileId → FileIdTaken after fileId

theorem KeepsFileIds.refl (kv : CatalogKv) : KeepsFileIds kv kv := fun _ taken => taken

theorem KeepsFileIds.trans {first second third : CatalogKv} (left : KeepsFileIds first second)
    (right : KeepsFileIds second third) : KeepsFileIds first third :=
  fun fileId taken => right fileId (left fileId taken)

variable {before after : CatalogKv} {order : CatalogOrderId}

theorem KeepsFileIds.of_eq (same : after.conflictMaxFileId = before.conflictMaxFileId) :
    KeepsFileIds before after := by
  intro fileId taken
  unfold FileIdTaken
  rw [same]
  exact taken

theorem stageMaxFileIdWatermark_taken (kv : CatalogKv) {candidate fileId : Nat} (below : fileId ≤ candidate) :
    FileIdTaken (stageMaxFileIdWatermark kv candidate) fileId := by
  refine ⟨_, OrderedMap.get?_insert_self _ _ _, ?_⟩
  cases kv.conflictMaxFileId.get? () with
  | none => exact Or.inl below
  | some watermark => exact Or.inl (below.trans (le_max_right watermark candidate))

theorem stageMaxFileIdWatermark_keeps (kv : CatalogKv) (candidate : Nat) :
    KeepsFileIds kv (stageMaxFileIdWatermark kv candidate) := by
  rintro fileId ⟨watermark, stored, reached⟩
  refine ⟨_, OrderedMap.get?_insert_self _ _ _, ?_⟩
  rw [stored]
  have raised : watermark ≤ max watermark candidate := le_max_left watermark candidate
  exact reached.imp raised.trans' raised.trans'

theorem stageInlineFlush_keepsFileIds (order : CatalogOrderId) (store : FdbStore) (prepared : PreparedInlineFlush) :
    KeepsFileIds store.kv (stageInlineFlush order store prepared).kv := by
  obtain ⟨inlineFileDeletion, same⟩ := stageFileDeletionEnds_writes order prepared.inlineFileDeletions store.kv
  unfold stageInlineFlush stagePayloadWatermark
  rw [same]
  refine KeepsFileIds.trans (KeepsFileIds.of_eq ?_) (stageMaxFileIdWatermark_keeps _ _)
  cases prepared.flush.flushInlineData with
  | false => rfl
  | true => cases prepared.maxBeginOrder <;> rfl

theorem stagePreparedInlineFlushes_keepsFileIds {store next : FdbStore}
    {prepared : List PreparedInlineFlush} {items : Nat}
    (staged : stagePreparedInlineFlushes order store prepared = some (next, items)) :
    KeepsFileIds store.kv next.kv := by
  unfold stagePreparedInlineFlushes at staged
  rw [Option.map_eq_some_iff] at staged
  obtain ⟨finish, folded, same⟩ := staged
  obtain ⟨rfl, rfl⟩ := Prod.mk.inj same
  refine foldlM_some_invariant (fun state => KeepsFileIds store.kv state.1.kv) folded (KeepsFileIds.refl _) ?_
  intro state prepared next _ soFar taken
  unfold stageFencedInlineFlush at taken
  rw [Option.map_eq_some_iff] at taken
  obtain ⟨fenced, fences, rfl⟩ := taken
  have kept : fenced.kv = state.1.kv := by
    split at fences
    · rw [← Option.some.inj fences]
    · unfold stageInlineFlushFence at fences
      dsimp only at fences
      split at fences
      · cases fences
      · rw [← Option.some.inj fences]
  exact soFar.trans (kept ▸ stageInlineFlush_keepsFileIds order fenced prepared)

theorem stageInlineDelete_maxFileId (order : CatalogOrderId) (store : FdbStore) (delete : PreparedInlineDelete) :
    (stageInlineDelete order store delete).kv.conflictMaxFileId = store.kv.conflictMaxFileId := by
  unfold stageInlineDelete
  split
  · rfl
  · refine foldl_view (fun store : FdbStore => store.kv.conflictMaxFileId) ?_ delete.rowIds _
    exact fun _ _ => rfl

theorem stageInlinePayload_maxFileId {sequence : RawSnapshotSequence} {store next : FdbStore}
    {payload : PreparedInlinePayload} (staged : stageInlinePayload order sequence store payload = .ok next) :
    next.kv.conflictMaxFileId = store.kv.conflictMaxFileId := by
  unfold stageInlinePayload at staged
  refine foldlM_invariant (fun next : FdbStore => next.kv.conflictMaxFileId = store.kv.conflictMaxFileId) staged ?_ ?_
  · dsimp only
    split <;> rfl
  · intro state key next _ soFar taken
    unfold stageInsertedInlineRow at taken
    split at taken
    · cases taken
    · rw [← Except.ok.inj taken]
      exact soFar

/-- Rows that go inline raise the watermark to the sequence of their snapshot. -/
theorem stagePreparedInlineMutation_keepsFileIds {store next : FdbStore}
    {prepared : PreparedInlineMutation} (staged : stagePreparedInlineMutation order store prepared = .ok next) :
    KeepsFileIds store.kv next.kv := by
  unfold stagePreparedInlineMutation at staged
  extract_lets replaced deleted at staged
  rw [bind_eq_ok] at staged
  obtain ⟨inserted, inserts, staged⟩ := staged
  simp only [pure_eq_ok] at staged
  subst staged
  refine KeepsFileIds.trans (KeepsFileIds.of_eq ?_) (stageMaxFileIdWatermark_keeps _ _)
  have first : replaced.kv.conflictMaxFileId = store.kv.conflictMaxFileId := by
    refine foldl_view CatalogKv.conflictMaxFileId ?_ prepared.replacements store.kv
    exact fun _ _ => rfl
  have second : deleted.kv.conflictMaxFileId = replaced.kv.conflictMaxFileId :=
    foldl_view (fun store : FdbStore => store.kv.conflictMaxFileId) (stageInlineDelete_maxFileId order)
      prepared.deletes replaced
  have third : inserted.kv.conflictMaxFileId = deleted.kv.conflictMaxFileId :=
    foldlM_invariant (fun next : FdbStore => next.kv.conflictMaxFileId = deleted.kv.conflictMaxFileId) inserts rfl
      fun _ _ _ _ soFar taken => (stageInlinePayload_maxFileId taken).trans soFar
  exact third.trans (second.trans first)

theorem stageOptionalInlineMutation_keepsFileIds {store next : FdbStore}
    {prepared : Option PreparedInlineMutation} (staged : stageOptionalInlineMutation order prepared store = .ok next) :
    KeepsFileIds store.kv next.kv := by
  cases prepared with
  | none =>
    obtain rfl := Except.ok.inj staged
    exact KeepsFileIds.refl _
  | some prepared => exact stagePreparedInlineMutation_keepsFileIds staged

theorem WritesDataFiles.maxFileId (writes : WritesDataFiles before after) :
    after.conflictMaxFileId = before.conflictMaxFileId := by
  obtain ⟨_, _, _, _, _, _, _, _, _, rfl⟩ := writes
  rfl

theorem WritesFileDetails.maxFileId (writes : WritesFileDetails before after) :
    after.conflictMaxFileId = before.conflictMaxFileId := by
  obtain ⟨_, _, _, _, _, _, rfl⟩ := writes
  rfl

theorem WritesDeleteFiles.maxFileId (writes : WritesDeleteFiles before after) :
    after.conflictMaxFileId = before.conflictMaxFileId := by
  obtain ⟨_, _, _, _, _, _, _, rfl⟩ := writes
  rfl

theorem WritesInlineFileDeletions.maxFileId (writes : WritesInlineFileDeletions before after) :
    after.conflictMaxFileId = before.conflictMaxFileId := by
  obtain ⟨_, rfl⟩ := writes
  rfl

theorem stageMutationFiles_fileIds {seen kv next : CatalogKv} {now : Int}
    {plan : FdbMutationPlan} {prepared : PreparedDataMutation}
    (staged : stageMutationFiles seen now order plan prepared kv = .ok next) :
    KeepsFileIds kv next ∧ ∀ fileId ∈ fileIdWatermarkCandidates prepared, FileIdTaken next fileId := by
  unfold stageMutationFiles at staged
  simp only [bind_eq_ok] at staged
  obtain ⟨appended, appends, partitioned, partitions, deleted, deletes, dropped, drops, staged⟩ := staged
  simp only [pure_eq_ok] at staged
  subst staged
  have files := (stageDataFiles_writes appends).maxFileId
  have details := ((stageFilePartitionValues_writes partitions).trans
    (stageFileStats_writes order partitioned prepared.mutation.fileColumnStats)).maxFileId
  have deleteFiles := (stageDeleteFiles_writes deletes).maxFileId
  have deletions := (stageInlineFileDeletions_writes order prepared.mutation.inlineFileDeletions deleted).maxFileId
  have ends := (stageExpiredDeleteFiles_writes seen now order plan.expiredObjectCleanupPolicy plan.expiredDeleteFiles
    dropped).maxFileId.trans (stageDroppedDataFiles_writes drops).maxFileId
  have begins := KeepsFileIds.of_eq (deletions.trans (deleteFiles.trans (details.trans files)))
  cases listed : (fileIdWatermarkCandidates prepared).max? with
  | none =>
    rw [listed] at ends
    refine ⟨begins.trans (KeepsFileIds.of_eq ends), fun fileId member => ?_⟩
    rw [List.max?_eq_none_iff.mp listed] at member
    exact absurd member List.not_mem_nil
  | some greatest =>
    rw [listed] at ends
    refine ⟨(begins.trans (stageMaxFileIdWatermark_keeps _ greatest)).trans (KeepsFileIds.of_eq ends), ?_⟩
    intro fileId member
    have below : fileId ≤ greatest := (List.max?_eq_some_iff.mp listed).2 fileId member
    exact KeepsFileIds.of_eq ends fileId (stageMaxFileIdWatermark_taken _ below)

variable {attempt : MutationAttempt} {store next : FdbStore}

/-- A committed mutation leaves none of its file ids to later reservations. -/
theorem AppliedMutation.fileIds (applied : AppliedMutation attempt store next) :
    KeepsFileIds store.kv next.kv ∧ ∀ fileId ∈ fileIdWatermarkCandidates applied.prepared, FileIdTaken next.kv fileId := by
  have accepted := applied.accepted
  unfold stageAcceptedMutation at accepted
  extract_lets attempted snapshot begun at accepted
  simp only [bind_eq_ok, pure_eq_ok] at accepted
  obtain ⟨inlined, inlines, filed, files, rfl⟩ := accepted
  have flushed := stagePreparedInlineFlushes_keepsFileIds applied.flushes
  have opens : KeepsFileIds applied.flushed.kv begun.kv := by
    apply KeepsFileIds.of_eq
    simp only [begun, attempted, stageSnapshot, stageCommitAttempt]
    cases attempt.recoveryId <;> rfl
  have inlineRows := stageOptionalInlineMutation_keepsFileIds inlines
  obtain ⟨_, operations⟩ := stageSnapshotOperations_writes store.commitOrder applied.plan.snapshotOperations inlined.kv
  rw [operations] at files
  have mutated := stageMutationFiles_fileIds files
  refine ⟨?_, mutated.2⟩
  exact ((flushed.trans opens).trans inlineRows).trans mutated.1

theorem AppliedMutation.fileIds_taken (applied : AppliedMutation attempt store next) {fileId : Nat}
    (member : fileId ∈ applied.plan.mutation.dataFiles.map DataFileRow.dataFileId ++
      applied.plan.mutation.deleteFiles.map DeleteFileRow.deleteFileId) : FileIdTaken next.kv fileId := by
  refine applied.fileIds.2 fileId ?_
  have deleteFileIds : (FdbDataMutation.prepared applied.plan.mutation).deleteFiles.map DeleteFileRow.deleteFileId =
      applied.plan.mutation.deleteFiles.map DeleteFileRow.deleteFileId := by
    simp only [FdbDataMutation.prepared, List.map_map]
    rfl
  unfold fileIdWatermarkCandidates
  rw [prepareDataMutation_mutation applied.prepares, prepared_dataFile_ids, deleteFileIds, ← List.append_assoc]
  exact List.mem_append_left _ member

/-! ## Reservations -/

/-- What a reservation takes and what it leaves. -/
structure ReservedRange (store next : FdbStore) (first count : Nat) : Prop where
  keeps : KeepsFileIds store.kv next.kv
  takes : ∀ fileId, fileId < first + count → FileIdTaken next.kv fileId
  above : ∀ fileId, FileIdTaken store.kv fileId → first < u64Max → fileId < first

theorem reserveFileIdRange_range {count first : Nat} (reserves : reserveFileIdRange store count = .ok (first, next)) :
    ReservedRange store next first count := by
  unfold reserveFileIdRange at reserves
  dsimp only at reserves
  split at reserves
  · cases reserves
  · simp only [Except.ok.injEq, Prod.mk.injEq] at reserves
    obtain ⟨isFirst, rfl⟩ := reserves
    rw [isFirst]
    refine ⟨?_, ?_, ?_⟩
    · rintro fileId ⟨watermark, stored, reached⟩
      rw [stored] at isFirst
      simp only [Option.elim_some, saturatingAdd] at isFirst
      refine ⟨_, OrderedMap.get?_insert_self _ _ _, ?_⟩
      omega
    · intro fileId below
      refine ⟨_, OrderedMap.get?_insert_self _ _ _, ?_⟩
      omega
    · rintro fileId ⟨watermark, stored, reached⟩ small
      rw [stored] at isFirst
      simp only [Option.elim_some, saturatingAdd] at isFirst
      omega

/-! ## Renaming a mutation -/

/-- The ids that a mutation proposes for its new files. -/
def FdbMutationPlan.proposedFileIds (plan : FdbMutationPlan) : List Nat :=
  plan.mutation.dataFiles.map DataFileRow.dataFileId ++ plan.mutation.deleteFiles.map DeleteFileRow.deleteFileId

/-- The plan with its new files under given ids, its references to data files and
its dropped files under others. -/
def FdbMutationPlan.renamed (given referred dropped : Nat → Nat) (plan : FdbMutationPlan) : FdbMutationPlan :=
  { plan with
    mutation := { plan.mutation with
      dataFiles := plan.mutation.dataFiles.map fun row => { row with dataFileId := given row.dataFileId }
      deleteFiles := plan.mutation.deleteFiles.map fun row =>
        { row with deleteFileId := given row.deleteFileId, dataFileId := referred row.dataFileId }
      partitionValues := plan.mutation.partitionValues.map fun row =>
        { row with dataFileId := referred row.dataFileId }
      inlineFileDeletions := plan.mutation.inlineFileDeletions.map fun row =>
        { row with dataFileId := referred row.dataFileId }
      fileColumnStats := plan.mutation.fileColumnStats.map fun row =>
        { row with dataFileId := referred row.dataFileId }
      droppedDataFileIds := plan.mutation.droppedDataFileIds.map dropped }
    readContext := { plan.readContext with
      appendPartitions := plan.readContext.appendPartitions.map fun expectation =>
        { expectation with dataFileId := referred expectation.dataFileId } } }

/-- New files get distinct ids of the reserved range, references to new data files
follow them, and references to the other ids stay. -/
structure FileIdRenaming (first : Nat) (plan : FdbMutationPlan) (Other : Nat → Prop) (given referred : Nat → Nat) :
    Prop where
  distinct : ∀ left ∈ plan.proposedFileIds, ∀ right ∈ plan.proposedFileIds, given left = given right → left = right
  reserved : ∀ fileId ∈ plan.proposedFileIds,
    first ≤ given fileId ∧ given fileId < first + plan.proposedFileIds.length
  follows : ∀ dataFileId ∈ plan.mutation.dataFiles.map DataFileRow.dataFileId, referred dataFileId = given dataFileId
  others : ∀ dataFileId, Other dataFileId → referred dataFileId = dataFileId

theorem get?_foldl_insert_zipIdx {proposed : List Nat} (distinct : proposed.Nodup) (first offset : Nat)
    (remaps : OrderedMap Nat Nat) (fileId : Nat) :
    ((proposed.zipIdx offset).foldl (fun remaps entry => remaps.insert entry.1 (first + entry.2)) remaps).get? fileId =
      if fileId ∈ proposed then some (first + (offset + proposed.idxOf fileId)) else remaps.get? fileId := by
  induction proposed generalizing offset remaps with
  | nil => simp
  | cons head rest ih =>
    have fresh := (List.nodup_cons.mp distinct).1
    rw [List.zipIdx_cons, List.foldl_cons, ih (List.nodup_cons.mp distinct).2]
    by_cases same : fileId = head
    · subst same
      rw [if_neg fresh, if_pos List.mem_cons_self, OrderedMap.get?_insert_self, List.idxOf_cons_self, Nat.add_zero]
    · have other : ∀ remaps : OrderedMap Nat Nat, (remaps.insert head (first + offset)).get? fileId = remaps.get? fileId :=
        fun remaps => by rw [OrderedMap.get?_insert, if_neg same]
      rw [other, List.idxOf_cons_ne rest (Ne.symm same)]
      by_cases listed : fileId ∈ rest
      · rw [if_pos listed, if_pos (List.mem_cons_of_mem _ listed)]
        congr 1
        omega
      · rw [if_neg listed, if_neg (by simp [same, listed])]

theorem remapFileId_eq {proposed : List Nat} (distinct : proposed.Nodup) (first fileId : Nat) :
    remapFileId (fileIdRemaps first proposed) fileId =
      if fileId ∈ proposed then first + proposed.idxOf fileId else fileId := by
  unfold remapFileId fileIdRemaps
  rw [get?_foldl_insert_zipIdx distinct first 0]
  split
  · rw [Option.getD_some, Nat.zero_add]
  · rfl

/-- The proposed ids are numbered on from the first reserved one; dropped files and
whatever is not proposed keep their ids. -/
theorem reserveMutationFileIds_renaming {first : Nat} {plan reserved : FdbMutationPlan}
    (reserves : reserveMutationFileIds first plan = .ok reserved) :
    ∃ given referred, FileIdRenaming first plan (· ∉ plan.proposedFileIds) given referred ∧
      reserved = plan.renamed given referred id := by
  unfold reserveMutationFileIds at reserves
  rw [bind_eq_ok] at reserves
  obtain ⟨proposed, proposes, reserves⟩ := reserves
  unfold Fdb.proposedFileIds at proposes
  dsimp only at proposes
  split at proposes
  · rename_i distinct
    obtain rfl := Except.ok.inj proposes
    have sorted := List.perm_insertionSort (· ≤ ·) plan.proposedFileIds
    split at reserves
    · rename_i none
      obtain rfl := Except.ok.inj reserves
      have nothing : plan.proposedFileIds = [] := (none ▸ sorted).symm.eq_nil
      refine ⟨id, id, ⟨?_, ?_, fun _ _ => rfl, fun _ _ => rfl⟩, by simp [FdbMutationPlan.renamed]⟩
      · simp [nothing]
      · simp [nothing]
    · obtain rfl := Except.ok.inj reserves
      have numbered := remapFileId_eq (sorted.nodup_iff.mpr distinct) first
      obtain ⟨remap, isRemap⟩ : ∃ remap, remap = remapFileId (fileIdRemaps first
        (plan.proposedFileIds.insertionSort (· ≤ ·))) := ⟨_, rfl⟩
      rw [← isRemap] at numbered
      refine ⟨remap, remap, ⟨?_, ?_, fun _ _ => rfl, ?_⟩, ?_⟩
      · intro left isLeft right isRight same
        rw [numbered, numbered, if_pos (sorted.mem_iff.mpr isLeft), if_pos (sorted.mem_iff.mpr isRight)] at same
        exact (List.idxOf_inj (sorted.mem_iff.mpr isLeft)).mp (Nat.add_left_cancel same)
      · intro fileId listed
        have member := sorted.mem_iff.mpr listed
        rw [numbered, if_pos member]
        have position := List.idxOf_lt_length_of_mem member
        rw [sorted.length_eq] at position
        omega
      · intro dataFileId unlisted
        rw [numbered, if_neg fun member => unlisted (sorted.mem_iff.mp member)]
      · rw [isRemap]
        simp only [FdbMutationPlan.renamed, remapMutationFileIds, List.map_id]
        rfl
  · cases proposes

end DucklakeCatalog.Fdb
