import DucklakeCatalog.Inline.ChangeFeed
import Mathlib.Data.List.Dedup

/-! Which inline registrations are rejected. The duplicate check walks the ids of a payload
after they were collected in a set, so no payload is rejected for a repeated id. -/
namespace DucklakeCatalog

open KeyedStore

/-- The ids of the lines of a payload, one for each line that carries one. -/
def carriedRowIds (payload : List UInt8) : List Nat :=
  (payloadLines payload).filterMap fun line => (inlinePayloadRowIdLine line).toOption

def RepeatsRowId (payload : List UInt8) : Prop := ¬ (carriedRowIds payload).Nodup

/-- A payload of row lines, each with an id of 64 bits. -/
def ReadableRows (payload : List UInt8) : Prop :=
  isUtf8 payload = true ∧ ∀ line ∈ payloadLines payload, (inlinePayloadRowIdLine line).toOption.isSome

/-- Some row is over the limit of a stored row. -/
def OverRowLimit (payload : List UInt8) : Prop :=
  ∃ line ∈ payload.splitOn newline, line ≠ [] ∧ inlinePayloadLimitBytes < line.length + 1

/-- More chunks than their 32-bit number can count. -/
def TooManyChunks (payload : List UInt8) : Prop := u32Max * inlineChunkBytes < payload.length

/-- The call answers `InvalidMutation` and changes nothing but the order it has drawn. -/
def RejectedUnchanged {α : Type} (kv : CatalogKv) (outcome : CatalogResult α × CatalogKv) : Prop :=
  (∃ message, outcome.1 = .error (.invalidMutation message)) ∧
    (outcome.2 = kv ∨ outcome.2 = kv.withGeneratedOrder)

def IsInvalidMutation : CatalogError → Prop
  | .invalidMutation _ => True
  | _ => False

/-! ## The checks before the store is touched -/

theorem validateInlineTableRowsFitFdb_ok_iff (payload : List UInt8) :
    validateInlineTableRowsFitFdb payload = .ok () ↔ ¬ OverRowLimit payload := by
  unfold validateInlineTableRowsFitFdb OverRowLimit
  rw [forM_eq_ok_iff]
  constructor
  · intro accepted oversized
    obtain ⟨line, member, nonempty, long⟩ := oversized
    have checked := accepted line member
    rw [if_neg nonempty, if_pos long] at checked
    cases checked
  · intro short line member
    by_cases empty : line = []
    · rw [if_pos empty]
    · have fits : ¬ line.length + 1 > inlinePayloadLimitBytes := fun long => short ⟨line, member, empty, long⟩
      rw [if_neg empty, if_neg fits]

variable {payload : List UInt8}

theorem validateInlineTableRowsFitFdb_error {failure : CatalogError}
    (rejected : validateInlineTableRowsFitFdb payload = .error failure) : IsInvalidMutation failure := by
  obtain ⟨line, _, found⟩ := forM_source rejected
  by_cases empty : line = []
  · rw [if_pos empty] at found
    cases found
  · rw [if_neg empty] at found
    by_cases long : line.length + 1 > inlinePayloadLimitBytes
    · rw [if_pos long] at found
      cases found
      exact trivial
    · rw [if_neg long] at found
      cases found

theorem InlinePayloadError.not_invalidMutation (failure : InlinePayloadError) :
    ¬ IsInvalidMutation failure.toCatalogError := by
  cases failure <;> exact id

theorem inlinePayloadRowIds_ok (readable : ReadableRows payload) :
    ∃ rowIds, inlinePayloadRowIds payload = .ok rowIds ∧ rowIds.Nodup := by
  obtain ⟨utf8, lines⟩ := readable
  have read : ∀ line ∈ payloadLines payload, ∃ rowId, inlinePayloadRowIdLine line = .ok rowId := by
    intro line member
    exact ⟨_, eq_ok_getD 0 (lines line member)⟩
  obtain ⟨rowIds, collected⟩ := mapM_total read
  refine ⟨rowIds.dedup.insertionSort (· ≤ ·), ?_, ?_⟩
  · rw [inlinePayloadRowIds, if_pos utf8, collected]
  · exact (List.perm_insertionSort _ _).nodup_iff.mpr rowIds.nodup_dedup

/-- The loop asks a set for its repetitions. -/
theorem rejectDuplicateInlineRowIdsInPayload_ok (readable : ReadableRows payload) :
    rejectDuplicateInlineRowIdsInPayload payload = .ok () := by
  obtain ⟨rowIds, collected, distinct⟩ := inlinePayloadRowIds_ok readable
  have unrepeated : rowIds.find? (fun rowId => 1 < rowIds.count rowId) = none := by
    rw [List.find?_eq_none]
    intro rowId _ repeated
    have once := List.nodup_iff_count_le_one.mp distinct rowId
    have twice := of_decide_eq_true repeated
    omega
  rw [rejectDuplicateInlineRowIdsInPayload, collected]
  simp only [bind, Except.bind, unrepeated]

theorem rejectDuplicateInlineRowIdsInPayload_error (unreadable : ¬ ReadableRows payload) :
    ∃ failure, rejectDuplicateInlineRowIdsInPayload payload = .error failure ∧ ¬ IsInvalidMutation failure := by
  have failed : ∃ failure : InlinePayloadError, inlinePayloadRowIds payload = .error failure.toCatalogError := by
    by_cases utf8 : isUtf8 payload = true
    · cases read : (payloadLines payload).mapM inlinePayloadRowIdLine with
      | error failure =>
        refine ⟨failure, ?_⟩
        rw [inlinePayloadRowIds, if_pos utf8, read]
      | ok rowIds =>
        refine absurd ⟨utf8, ?_⟩ unreadable
        intro line member
        obtain ⟨rowId, _, found⟩ := mapM_accepts read member
        rw [found]
        rfl
    · refine ⟨.notUtf8, ?_⟩
      rw [inlinePayloadRowIds, if_neg utf8]
  obtain ⟨failure, failed⟩ := failed
  refine ⟨failure.toCatalogError, ?_, failure.not_invalidMutation⟩
  rw [rejectDuplicateInlineRowIdsInPayload, failed]
  rfl

/-- What the checks make of a payload: too long, not readable, or fine. -/
inductive Validated (payload : List UInt8) : CatalogResult Unit → Prop
  | overLimit {message : String} (long : OverRowLimit payload) : Validated payload (.error (.invalidMutation message))
  | unreadable {failure : CatalogError} (short : ¬ OverRowLimit payload) (unread : ¬ ReadableRows payload)
    (other : ¬ IsInvalidMutation failure) : Validated payload (.error failure)
  | accepted (short : ¬ OverRowLimit payload) (readable : ReadableRows payload) : Validated payload (.ok ())

theorem validateInlineTablePayload_cases (payload : List UInt8) :
    Validated payload (validateInlineTablePayload payload) := by
  unfold validateInlineTablePayload
  cases fits : validateInlineTableRowsFitFdb payload with
  | error failure =>
    have long : OverRowLimit payload := by
      by_contra short
      rw [(validateInlineTableRowsFitFdb_ok_iff payload).mpr short] at fits
      cases fits
    have kind := validateInlineTableRowsFitFdb_error fits
    cases failure with
    | invalidMutation message => exact .overLimit long
    | _ => exact kind.elim
  | ok _ =>
    have short := (validateInlineTableRowsFitFdb_ok_iff payload).mp fits
    by_cases readable : ReadableRows payload
    · simp only [bind, Except.bind, rejectDuplicateInlineRowIdsInPayload_ok readable]
      exact .accepted short readable
    · obtain ⟨failure, rejected, other⟩ := rejectDuplicateInlineRowIdsInPayload_error readable
      simp only [bind, Except.bind, rejected]
      exact .unreadable short readable other

/-! ## The staging of an accepted payload -/

theorem optionalInlinePayloadRows_ok (text : RowText payload) :
    optionalInlinePayloadRows payload = .ok (insertedRows payload) := by
  rw [optionalInlinePayloadRows, (insertedRows_lines text).2]

theorem stageInlineRowChangesForPayload_ok (text : RowText payload) (batch : KvBatch)
    (tableId : TableId) (schemaId : SchemaId) (order : CatalogOrderId) (kind : InlineRowChangeKind) :
    ∃ next, stageInlineRowChangesForPayload batch tableId schemaId order kind payload = .ok next := by
  simp only [stageInlineRowChangesForPayload, optionalInlinePayloadRows_ok text, bind, Except.bind, pure, Except.pure]
  exact ⟨_, rfl⟩

theorem chunkCount_of_tooMany (many : TooManyChunks payload) :
    chunkCount payload.length = .error (.invalidMutation "inline payload has too many chunks") := by
  have width : inlineChunkBytes = 16384 := rfl
  have largest : u32Max = 4294967295 := rfl
  rw [TooManyChunks, width, largest] at many
  have nonempty : payload.length ≠ 0 := by omega
  have beyond : ¬ (payload.length + (inlineChunkBytes - 1)) / inlineChunkBytes ≤ u32Max := by
    rw [width, largest]
    omega
  simp only [chunkCount, if_neg nonempty, if_neg beyond]

theorem chunkCount_of_few (few : ¬ TooManyChunks payload) :
    ∃ count, chunkCount payload.length = .ok count := by
  have width : inlineChunkBytes = 16384 := rfl
  have largest : u32Max = 4294967295 := rfl
  rw [TooManyChunks, width, largest] at few
  by_cases empty : payload.length = 0
  · exact ⟨1, by rw [empty]; rfl⟩
  · have within : (payload.length + (inlineChunkBytes - 1)) / inlineChunkBytes ≤ u32Max := by
      rw [width, largest]
      omega
    simp only [chunkCount, if_neg empty, if_pos within]
    exact ⟨_, rfl⟩

/-- Staging that only chunking can refuse. -/
def StagesIffFewChunks {α : Type} (payload : List UInt8) (staged : CatalogResult α) : Prop :=
  (TooManyChunks payload ∧ ∃ message, staged = .error (.invalidMutation message)) ∨
    (¬ TooManyChunks payload ∧ ∃ result, staged = .ok result)

theorem stageInlineTablePayload_cases (kv : CatalogKv) (now : Int) (tableId : TableId) (schemaId : SchemaId)
    (text : RowText payload) (order : CatalogOrderId) :
    StagesIffFewChunks payload (stageInlineTablePayload kv now tableId schemaId payload order) := by
  obtain ⟨next, changed⟩ := stageInlineRowChangesForPayload_ok text
    (stageSnapshot {} (snapshotRowForNextSequence (latestSnapshot kv) order now)) tableId schemaId order .inserted
  by_cases many : TooManyChunks payload
  · refine Or.inl ⟨many, "inline payload has too many chunks", ?_⟩
    simp only [stageInlineTablePayload, changed, inlineTableChunks, chunkCount_of_tooMany many, bind, Except.bind]
  · obtain ⟨count, counted⟩ := chunkCount_of_few many
    refine Or.inr ⟨many, ?_⟩
    simp only [stageInlineTablePayload, changed, inlineTableChunks, counted, bind, Except.bind, pure, Except.pure]
    exact ⟨_, rfl⟩

theorem stageInlineTablePayloadWithTable_cases (kv : CatalogKv) (now : Int) (table previousTable : TableRow)
    (schemaId : SchemaId) (text : RowText payload) (sequence : RawSnapshotSequence) (order : CatalogOrderId) :
    StagesIffFewChunks payload
      (stageInlineTablePayloadWithTable kv now table previousTable schemaId payload sequence order) := by
  obtain ⟨next, changed⟩ := stageInlineRowChangesForPayload_ok text
    (stageSnapshot {} (SnapshotRow.new order sequence now)) table.tableId schemaId order .inserted
  by_cases many : TooManyChunks payload
  · refine Or.inl ⟨many, "inline payload has too many chunks", ?_⟩
    simp only [stageInlineTablePayloadWithTable, changed, inlineTableChunks, chunkCount_of_tooMany many, bind,
      Except.bind]
  · obtain ⟨count, counted⟩ := chunkCount_of_few many
    refine Or.inr ⟨many, ?_⟩
    simp only [stageInlineTablePayloadWithTable, changed, inlineTableChunks, counted, bind, Except.bind, pure,
      Except.pure]
    exact ⟨_, rfl⟩

/-! ## Rejections -/

theorem rejected_of_error {α : Type} {kv : CatalogKv} {failure : CatalogError} :
    RejectedUnchanged kv ((.error failure, kv) : CatalogResult α × CatalogKv) ↔ IsInvalidMutation failure := by
  constructor
  · intro rejected
    obtain ⟨⟨message, same⟩, _⟩ := rejected
    cases same
    exact trivial
  · intro kind
    cases failure with
    | invalidMutation message => exact ⟨⟨message, rfl⟩, Or.inl rfl⟩
    | _ => exact kind.elim

theorem commitWith_rejected_iff {α : Type} {kv : CatalogKv} {stage : CatalogOrderId → CatalogResult (α × KvBatch)}
    (stages : StagesIffFewChunks payload (stage kv.generatedOrderId)) :
    RejectedUnchanged kv (commitWith kv stage) ↔ TooManyChunks payload := by
  rcases stages with ⟨many, message, failed⟩ | ⟨few, staged, accepted⟩
  · have outcome : commitWith kv stage = (.error (.invalidMutation message), kv.withGeneratedOrder) := by
      rw [commitWith, failed]
    constructor
    · intro _
      exact many
    · intro _
      rw [outcome]
      exact ⟨⟨message, rfl⟩, Or.inr rfl⟩
  · have outcome : (commitWith kv stage).1 = .ok staged.1 := by
      rw [commitWith, accepted]
    constructor
    · intro rejected
      obtain ⟨message, failed⟩ := rejected.1
      rw [outcome] at failed
      cases failed
    · intro many
      exact absurd many few

theorem ReadableRows.rowText (readable : ReadableRows payload) : RowText payload := by
  refine ⟨readable.1, ?_⟩
  intro line member
  have read := eq_ok_getD 0 (readable.2 line member)
  obtain ⟨same, nonempty⟩ := inlineRowId_of_rowIdLine read
  exact ⟨nonempty, _, same⟩

theorem registerInlineTablePayload_rejected_iff (kv : CatalogKv) (now : Int) (tableId : TableId) (schemaId : SchemaId)
    (payload : List UInt8) :
    RejectedUnchanged kv (registerInlineTablePayload kv now tableId schemaId payload) ↔
      OverRowLimit payload ∨ (ReadableRows payload ∧ TooManyChunks payload) := by
  unfold registerInlineTablePayload
  have cases := validateInlineTablePayload_cases payload
  generalize validateInlineTablePayload payload = validated at cases
  cases cases with
  | overLimit long =>
    rw [rejected_of_error]
    exact ⟨fun _ => Or.inl long, fun _ => trivial⟩
  | unreadable short unread other =>
    rw [rejected_of_error]
    constructor
    · intro kind
      exact absurd kind other
    · intro condition
      exact (condition.elim short fun both => unread both.1).elim
  | accepted short readable =>
    have committed := commitWith_rejected_iff (stageInlineTablePayload_cases kv now tableId schemaId readable.rowText
      kv.generatedOrderId)
    constructor
    · intro rejected
      exact Or.inr ⟨readable, committed.mp rejected⟩
    · intro condition
      exact committed.mpr (condition.elim (fun long => absurd long short) And.right)

/-- A commit sequence that is neither the latest one nor its successor. -/
def OtherSequence (latest : SnapshotRow) (commitSnapshot : Option RawSnapshotSequence) : Prop :=
  ∃ asked ∈ commitSnapshot, asked ≠ latest.sequence ∧ asked ≠ latest.sequence + 1

theorem inlineCommitSequence_cases (latest : SnapshotRow) (commitSnapshot : Option RawSnapshotSequence) :
    (OtherSequence latest commitSnapshot ∧
        ∃ message, inlineCommitSequence latest commitSnapshot = .error (.invalidMutation message)) ∨
      (¬ OtherSequence latest commitSnapshot ∧
        ∃ sequence, inlineCommitSequence latest commitSnapshot = .ok sequence) := by
  cases commitSnapshot with
  | none =>
    refine Or.inr ⟨?_, _, rfl⟩
    intro other
    obtain ⟨_, asked, _⟩ := other
    cases asked
  | some asked =>
    by_cases other : asked ≠ latest.sequence ∧ asked ≠ latest.sequence + 1
    · exact Or.inl ⟨⟨asked, rfl, other⟩, _, if_pos other⟩
    · refine Or.inr ⟨?_, _, if_neg other⟩
      intro asks
      obtain ⟨_, same, different⟩ := asks
      cases same
      exact other different

/-- What a registration with a table still needs once its payload has been accepted. -/
def RefusedCommit (kv : CatalogKv) (table : TableRow) (payload : List UInt8)
    (commitSnapshot : Option RawSnapshotSequence) : Prop :=
  ∃ latest, latestSnapshot kv = some latest ∧ (kv.currentTableRow.get? table.tableId).isSome ∧
    (OtherSequence latest commitSnapshot ∨ TooManyChunks payload)

theorem registerInlineTablePayloadWithTableAtSnapshot_rejected_iff (kv : CatalogKv) (now : Int) (table : TableRow)
    (schemaId : SchemaId) (payload : List UInt8) (commitSnapshot : Option RawSnapshotSequence) :
    RejectedUnchanged kv
        (registerInlineTablePayloadWithTableAtSnapshot kv now table schemaId payload commitSnapshot) ↔
      OverRowLimit payload ∨ (ReadableRows payload ∧ RefusedCommit kv table payload commitSnapshot) := by
  unfold registerInlineTablePayloadWithTableAtSnapshot inlineTableVersionToReplace
  have validation := validateInlineTablePayload_cases payload
  generalize validateInlineTablePayload payload = validated at validation
  cases validation with
  | overLimit long =>
    simp only [bind, Except.bind]
    rw [rejected_of_error]
    exact ⟨fun _ => Or.inl long, fun _ => trivial⟩
  | unreadable short unread other =>
    simp only [bind, Except.bind]
    rw [rejected_of_error]
    constructor
    · intro kind
      exact absurd kind other
    · intro condition
      exact (condition.elim short fun both => unread both.1).elim
  | accepted short readable =>
    have onlyCommit :
        OverRowLimit payload ∨ (ReadableRows payload ∧ RefusedCommit kv table payload commitSnapshot) ↔
          RefusedCommit kv table payload commitSnapshot := by
      constructor
      · intro condition
        exact condition.elim (fun long => absurd long short) And.right
      · intro refused
        exact Or.inr ⟨readable, refused⟩
    rw [onlyCommit]
    cases newest : latestSnapshot kv with
    | none =>
      simp only [bind, Except.bind, Option.elim]
      rw [rejected_of_error]
      constructor
      · intro kind
        exact kind.elim
      · intro refused
        obtain ⟨_, found, _⟩ := refused
        rw [newest] at found
        cases found
    | some latest =>
      cases current : kv.currentTableRow.get? table.tableId with
      | none =>
        simp only [bind, Except.bind, Option.elim]
        rw [rejected_of_error]
        constructor
        · intro kind
          exact kind.elim
        · intro refused
          obtain ⟨_, _, found, _⟩ := refused
          rw [current] at found
          cases found
      | some previousTable =>
        have refused_iff : RefusedCommit kv table payload commitSnapshot ↔
            OtherSequence latest commitSnapshot ∨ TooManyChunks payload := by
          constructor
          · intro refused
            obtain ⟨other, found, _, refused⟩ := refused
            rw [newest] at found
            cases found
            exact refused
          · intro refused
            exact ⟨latest, newest, by rw [current]; rfl, refused⟩
        rw [refused_iff]
        rcases inlineCommitSequence_cases latest commitSnapshot with
          ⟨other, message, failed⟩ | ⟨matched, sequence, accepted⟩
        · simp only [bind, Except.bind, Option.elim, failed]
          rw [rejected_of_error]
          exact ⟨fun _ => Or.inl other, fun _ => trivial⟩
        · simp only [bind, Except.bind, Option.elim, accepted, pure, Except.pure]
          rw [commitWith_rejected_iff (stageInlineTablePayloadWithTable_cases kv now table previousTable schemaId
            readable.rowText sequence kv.generatedOrderId)]
          constructor
          · intro many
            exact Or.inr many
          · intro refused
            exact refused.elim (fun other => absurd other matched) id

/-- Whatever ids a payload carries, once or twice: it is rejected for the length of a row or
of the payload, or for the commit it asks for, and the duplicate check passes whatever it can read. -/
theorem inlineRegistrations_rejected_iff (kv : CatalogKv) (now : Int) (payload : List UInt8) :
    (∀ (tableId : TableId) (schemaId : SchemaId),
      RejectedUnchanged kv (registerInlineTablePayload kv now tableId schemaId payload) ↔
        OverRowLimit payload ∨ (ReadableRows payload ∧ TooManyChunks payload)) ∧
    (∀ (table : TableRow) (schemaId : SchemaId) (commitSnapshot : Option RawSnapshotSequence),
      RejectedUnchanged kv
          (registerInlineTablePayloadWithTableAtSnapshot kv now table schemaId payload commitSnapshot) ↔
        OverRowLimit payload ∨ (ReadableRows payload ∧ RefusedCommit kv table payload commitSnapshot)) ∧
    (ReadableRows payload → rejectDuplicateInlineRowIdsInPayload payload = .ok ()) := by
  refine ⟨?_, ?_, rejectDuplicateInlineRowIdsInPayload_ok⟩
  · intro tableId schemaId
    exact registerInlineTablePayload_rejected_iff kv now tableId schemaId payload
  · intro table schemaId commitSnapshot
    exact registerInlineTablePayloadWithTableAtSnapshot_rejected_iff kv now table schemaId payload commitSnapshot

/-- Two lines with row id 1. -/
def repeatedRow : List UInt8 := [114, 111, 119, 9, 49, 10, 114, 111, 119, 9, 49, 10]

theorem repeatedRow_registered :
    RepeatsRowId repeatedRow ∧ ¬ RejectedUnchanged {} (registerInlineTablePayload {} 0 1 0 repeatedRow) := by
  have repeats : carriedRowIds repeatedRow = [1, 1] := by decide
  have accepted : (registerInlineTablePayload {} 0 1 0 repeatedRow).1.toOption.isSome := by decide
  refine ⟨?_, ?_⟩
  · rw [RepeatsRowId, repeats]
    decide
  · intro rejected
    obtain ⟨message, failed⟩ := rejected.1
    rw [failed] at accepted
    cases accepted

theorem inlineRegistrations_rejected_iff_readable : rejectDuplicateInlineRowIdsInPayload repeatedRow = .ok () :=
  (inlineRegistrations_rejected_iff {} 0 repeatedRow).2.2 ⟨by decide, by decide⟩

end DucklakeCatalog
