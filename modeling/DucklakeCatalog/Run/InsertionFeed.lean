import DucklakeCatalog.File.InsertionFeed
import DucklakeCatalog.Run.DataFileCoherence

namespace DucklakeCatalog

open KeyedStore

/-! ## The begin index of a coherent store -/

section

variable {kv : CatalogKv} {tableId : TableId} {row : DataFileRow}

theorem DataFileIndexes.Coherent.mem_dataFilesByBegin (coherent : kv.dataFileIndexes.Coherent) :
    row ∈ dataFilesByBegin kv tableId ↔ kv.dataFile.get? row.dataFileId = some row ∧ row.tableId = tableId := by
  rw [dataFilesByBegin, List.mem_map]
  constructor
  · rintro ⟨⟨key, stored⟩, scanned, same⟩
    obtain ⟨found, inside⟩ := OrderedMap.mem_scan.mp scanned
    obtain ⟨primary, table, begun⟩ := coherent.begins.mp found
    have whole : row = stored := by
      rw [← same, dataFileFromBeginIndexItem, ← begun]
      rfl
    subst whole
    exact ⟨coherent.named primary ▸ primary, table.trans (of_decide_eq_true inside)⟩
  · rintro ⟨primary, rfl⟩
    exact ⟨(⟨row.tableId, row.validity.beginOrder, row.dataFileId⟩, row), OrderedMap.mem_scan.mpr
      ⟨coherent.begins.mpr ⟨primary, rfl, rfl⟩, by simp⟩, rfl⟩

theorem mem_dataFilesBegunBy {snapshotOrder : CatalogOrderId} : row ∈ dataFilesBegunBy kv tableId snapshotOrder ↔
    row ∈ dataFilesByBegin kv tableId ∧ row.validity.beginOrder ≤ snapshotOrder := by
  simp only [dataFilesBegunBy, dataFilesByBegin, List.mem_map, OrderedMap.mem_scan]
  constructor
  · rintro ⟨entry, ⟨found, inside⟩, rfl⟩
    rw [Bool.and_eq_true, decide_eq_true_eq, decide_eq_true_eq] at inside
    exact ⟨⟨entry, ⟨found, by simpa using inside.1⟩, rfl⟩, inside.2⟩
  · rintro ⟨⟨entry, ⟨found, inside⟩, rfl⟩, begun⟩
    refine ⟨entry, ⟨found, ?_⟩, rfl⟩
    rw [Bool.and_eq_true, decide_eq_true_eq, decide_eq_true_eq]
    exact ⟨of_decide_eq_true inside, begun⟩

end

/-! ## The feed on stored files -/

/-- The stored data files of the table. -/
def storedDataFiles (kv : CatalogKv) (tableId : TableId) : List DataFileRow :=
  (kv.dataFile.entries.map Prod.snd).filter fun row => row.tableId = tableId

/-- A file the feed leaves to the inline feed: written by a flush and carrying no other commit. -/
def isFlushOutput (kv : CatalogKv) (file : DataFileRow) : Bool :=
  file.maxPartialOrder.isNone && isFlushedInlineFile kv file.tableId file.validity.beginOrder

/-- Begins in the window and is no flush output. -/
def insertedInWindow (kv : CatalogKv) (startOrder endOrder : CatalogOrderId) (file : DataFileRow) : Bool :=
  decide (startOrder ≤ file.validity.beginOrder) && decide (file.validity.beginOrder ≤ endOrder) &&
    !isFlushOutput kv file

/-- Every file inserted in the window is returned, or a returned replacement holds its row ids. -/
def InsertionFeedComplete (kv : CatalogKv) (tableId : TableId) (startOrder endOrder : CatalogOrderId) : Prop :=
  ∀ file ∈ storedDataFiles kv tableId, insertedInWindow kv startOrder endOrder file = true →
    ∃ returned, insertionFiles kv tableId startOrder endOrder = .ok returned ∧
      (file ∈ returned ∨
        ∃ replacement ∈ returned, replacement.maxPartialOrder.isSome = true ∧ coversRowIdRange replacement file = true)

/-- A replacement that overlaps the window and begins in no other open span that does. -/
def UnhiddenReplacement (kv : CatalogKv) (tableId : TableId) (startOrder endOrder : CatalogOrderId)
    (replacement : DataFileRow) : Prop :=
  replacement.maxPartialOrder.isSome = true ∧ insertionFileOverlapsWindow replacement startOrder endOrder = true ∧
    ∀ other ∈ storedDataFiles kv tableId, insertionFileOverlapsWindow other startOrder endOrder = true →
      hidesCompactedSource other replacement = false

instance : Decidable (UnhiddenReplacement kv tableId startOrder endOrder replacement) :=
  inferInstanceAs (Decidable (_ ∧ _ ∧ _))

/-- A file inserted in the window inside the span of another open file has its row ids in a replacement that
begins in no such span itself. -/
def HiddenFilesCovered (kv : CatalogKv) (tableId : TableId) (startOrder endOrder : CatalogOrderId) : Prop :=
  ∀ file ∈ storedDataFiles kv tableId, insertedInWindow kv startOrder endOrder file = true →
    ∀ hider ∈ storedDataFiles kv tableId, hidesCompactedSource hider file = true →
      ∃ replacement ∈ storedDataFiles kv tableId,
        UnhiddenReplacement kv tableId startOrder endOrder replacement ∧ coversRowIdRange replacement file = true

instance : Decidable (HiddenFilesCovered kv tableId startOrder endOrder) :=
  inferInstanceAs (Decidable (∀ _ ∈ _, _))

section

variable {kv : CatalogKv} {tableId : TableId} {startOrder endOrder : CatalogOrderId} {file : DataFileRow}

theorem DataFileIndexes.Coherent.mem_storedDataFiles (coherent : kv.dataFileIndexes.Coherent) :
    file ∈ storedDataFiles kv tableId ↔ kv.dataFile.get? file.dataFileId = some file ∧ file.tableId = tableId := by
  rw [storedDataFiles, List.mem_filter, List.mem_map, decide_eq_true_eq]
  constructor
  · rintro ⟨⟨⟨dataFileId, stored⟩, member, rfl⟩, inTable⟩
    have found := (OrderedMap.get?_eq_some_iff _).mpr member
    exact ⟨coherent.named found ▸ found, inTable⟩
  · rintro ⟨found, inTable⟩
    exact ⟨⟨(file.dataFileId, file), (OrderedMap.get?_eq_some_iff _).mp found, rfl⟩, inTable⟩

/-- A file that overlaps the window without being a replacement begins in it. -/
theorem insertionFileOverlapsWindow_of_begin (plain : file.maxPartialOrder = none) :
    insertionFileOverlapsWindow file startOrder endOrder = true ↔
      startOrder ≤ file.validity.beginOrder ∧ file.validity.beginOrder ≤ endOrder := by
  simp [insertionFileOverlapsWindow, DataFileRow.insertionSpan, plain, and_comm]

theorem overlapsWindow_of_order {order : CatalogOrderId} (first : file.insertionSpan.1 ≤ order)
    (last : order ≤ file.insertionSpan.2) (starts : startOrder ≤ order) (ends : order ≤ endOrder) :
    insertionFileOverlapsWindow file startOrder endOrder = true := by
  rw [insertionFileOverlapsWindow, Bool.and_eq_true, decide_eq_true_eq, decide_eq_true_eq]
  exact ⟨first.trans ends, starts.trans last⟩

theorem span_beginOrder (file : DataFileRow) :
    file.insertionSpan.1 ≤ file.validity.beginOrder ∧ file.validity.beginOrder ≤ file.insertionSpan.2 := by
  unfold DataFileRow.insertionSpan
  cases file.maxPartialOrder with
  | none => exact ⟨le_rfl, le_rfl⟩
  | some maxPartialOrder => exact ⟨min_le_left _ _, le_max_left _ _⟩

theorem hidesCompactedSource_iff {replacement : DataFileRow} : hidesCompactedSource replacement file = true ↔
    replacement.validity.endOrder = none ∧ replacement.dataFileId ≠ file.dataFileId ∧
      ∃ maxOrder, replacement.maxPartialOrder = some maxOrder ∧
        replacement.validity.beginOrder ≤ file.validity.beginOrder ∧ file.validity.beginOrder ≤ maxOrder := by
  cases partialOrder : replacement.maxPartialOrder with
  | none => simp [hidesCompactedSource, partialOrder]
  | some maxOrder => simp [hidesCompactedSource, partialOrder, and_assoc]

/-- A file inside another one's span makes that one overlap every window the file begins in. -/
theorem overlapsWindow_of_hides {replacement : DataFileRow} (hides : hidesCompactedSource replacement file = true)
    (starts : startOrder ≤ file.validity.beginOrder) (ends : file.validity.beginOrder ≤ endOrder) :
    insertionFileOverlapsWindow replacement startOrder endOrder = true := by
  obtain ⟨_, _, maxOrder, isPartial, first, last⟩ := hidesCompactedSource_iff.mp hides
  refine overlapsWindow_of_order ((span_beginOrder replacement).1.trans first) ?_ starts ends
  simp only [DataFileRow.insertionSpan, isPartial, Option.elim]
  exact last.trans (le_max_right _ _)

/-- What the feed returns: the overlapping files that begin in no overlapping open span. -/
theorem mem_insertionFiles (coherent : kv.dataFileIndexes.Coherent) {returned : List DataFileRow}
    (listed : insertionFiles kv tableId startOrder endOrder = .ok returned) :
    file ∈ returned ↔ (file ∈ storedDataFiles kv tableId ∧ isFlushOutput kv file = false ∧
        insertionFileOverlapsWindow file startOrder endOrder = true) ∧
      ∀ other ∈ storedDataFiles kv tableId, insertionFileOverlapsWindow other startOrder endOrder = true →
        hidesCompactedSource other file = false := by
  have stored {row : DataFileRow} : row ∈ dataFilesByBegin kv tableId ↔ row ∈ storedDataFiles kv tableId := by
    rw [coherent.mem_dataFilesByBegin, coherent.mem_storedDataFiles]
  unfold insertionFiles at listed
  split at listed
  · simp at listed
  extract_lets begun spanning at listed
  have candidate {row : DataFileRow} : row ∈ begun ++ spanning ↔ row ∈ storedDataFiles kv tableId ∧
      isFlushOutput kv row = false ∧ insertionFileOverlapsWindow row startOrder endOrder = true := by
    rw [List.mem_append, List.mem_filter, List.mem_filter, mem_dataFilesBegunBy, stored]
    have table (member : row ∈ storedDataFiles kv tableId) : row.tableId = tableId :=
      (coherent.mem_storedDataFiles.mp member).2
    cases isPartial : row.maxPartialOrder with
    | none =>
      constructor
      · rintro (⟨⟨member, _⟩, kept⟩ | ⟨_, none⟩)
        · simp only [Option.isNone_none, Bool.true_and, Bool.and_eq_true, Bool.not_eq_true'] at kept
          exact ⟨member, by simp [isFlushOutput, isPartial, table member, kept.1], kept.2⟩
        · simp at none
      · rintro ⟨member, notFlush, overlaps⟩
        refine Or.inl ⟨⟨member, ((insertionFileOverlapsWindow_of_begin isPartial).mp overlaps).2⟩, ?_⟩
        simpa [isFlushOutput, isPartial, table member, overlaps] using notFlush
    | some maxOrder =>
      constructor
      · rintro (⟨⟨member, _⟩, kept⟩ | ⟨member, kept⟩)
        · exact ⟨member, by simp [isFlushOutput, isPartial], (Bool.and_eq_true _ _ ▸ kept).2⟩
        · exact ⟨member, by simp [isFlushOutput, isPartial], (Bool.and_eq_true _ _ ▸ kept).2⟩
      · rintro ⟨member, _, overlaps⟩
        exact Or.inr ⟨member, by simp [overlaps]⟩
  have agree : ∀ left ∈ begun ++ spanning, ∀ right ∈ begun ++ spanning, left.dataFileId = right.dataFileId → left = right := by
    intro left inLeft right inRight same
    have first := (coherent.mem_storedDataFiles.mp (candidate.mp inLeft).1).1
    have second := (coherent.mem_storedDataFiles.mp (candidate.mp inRight).1).1
    rw [same, second] at first
    exact (Option.some.inj first).symm
  rw [← Except.ok.inj listed, withoutCompactedSources, List.mem_filter, mem_collectDataFiles agree, candidate]
  refine and_congr_right fun _ => ?_
  rw [Bool.not_eq_true', List.any_eq_false]
  constructor
  · intro unhidden other member overlaps
    by_contra hides
    rw [Bool.not_eq_false] at hides
    -- Whatever hides a file is a replacement, and those are never taken for flush outputs.
    obtain ⟨_, _, maxOrder, isPartial, _⟩ := hidesCompactedSource_iff.mp hides
    exact unhidden other ((mem_collectDataFiles agree).mpr
      (candidate.mpr ⟨member, by simp [isFlushOutput, isPartial], overlaps⟩)) hides
  · intro unhidden other member
    obtain ⟨stored, _, overlaps⟩ := candidate.mp ((mem_collectDataFiles agree).mp member)
    simp [unhidden other stored overlaps]

end

/-! ## Completeness -/

/-- The feed is complete in a window exactly when the files it hides there have their row ids in a replacement
it does not hide. -/
theorem insertionFiles_complete_iff (reachable : CatalogHistory.Reachable CatalogHistory.FreshDataFileIds history)
    (tableId : TableId) (startOrder endOrder : CatalogOrderId) :
    InsertionFeedComplete history.kv tableId startOrder endOrder ↔
      HiddenFilesCovered history.kv tableId startOrder endOrder := by
  have coherent := (reachable.dataFilesSound fun _ _ fresh => fresh).coherent
  have inWindow {file : DataFileRow} (inserted : insertedInWindow history.kv startOrder endOrder file = true) :
      startOrder ≤ file.validity.beginOrder ∧ file.validity.beginOrder ≤ endOrder ∧
        isFlushOutput history.kv file = false := by
    simpa [insertedInWindow, and_assoc] using inserted
  constructor
  · intro complete file stored inserted hider hiderStored hides
    obtain ⟨starts, ends, _⟩ := inWindow inserted
    obtain ⟨returned, listed, file_or⟩ := complete file stored inserted
    rcases file_or with returnedFile | ⟨replacement, returnedReplacement, isPartial, covers⟩
    · have unhidden := ((mem_insertionFiles coherent listed).mp returnedFile).2 hider hiderStored
        (overlapsWindow_of_hides hides starts ends)
      rw [hides] at unhidden
      exact absurd unhidden (by simp)
    · obtain ⟨⟨replacementStored, _, overlaps⟩, unhidden⟩ := (mem_insertionFiles coherent listed).mp returnedReplacement
      exact ⟨replacement, replacementStored, ⟨isPartial, overlaps, unhidden⟩, covers⟩
  · intro covered file stored inserted
    obtain ⟨starts, ends, notFlush⟩ := inWindow inserted
    obtain ⟨returned, listed⟩ : ∃ returned, insertionFiles history.kv tableId startOrder endOrder = .ok returned := by
      unfold insertionFiles
      rw [if_neg (not_lt.mpr (starts.trans ends))]
      exact ⟨_, rfl⟩
    refine ⟨returned, listed, ?_⟩
    have overlaps : insertionFileOverlapsWindow file startOrder endOrder = true :=
      overlapsWindow_of_order (span_beginOrder file).1 (span_beginOrder file).2 starts ends
    by_cases hidden : ∃ hider ∈ storedDataFiles history.kv tableId, hidesCompactedSource hider file = true
    · obtain ⟨hider, hiderStored, hides⟩ := hidden
      obtain ⟨replacement, replacementStored, ⟨isPartial, overlapsToo, unhidden⟩, covers⟩ :=
        covered file stored inserted hider hiderStored hides
      refine Or.inr ⟨replacement, (mem_insertionFiles coherent listed).mpr ⟨⟨replacementStored, ?_, overlapsToo⟩,
        unhidden⟩, isPartial, covers⟩
      rw [Option.isSome_iff_ne_none] at isPartial
      simp [isFlushOutput, isPartial]
    · refine Or.inl ((mem_insertionFiles coherent listed).mpr ⟨⟨stored, notFlush, overlaps⟩, ?_⟩)
      intro other otherStored _
      by_contra hides
      exact hidden ⟨other, otherStored, by simpa using hides⟩

/-- Two files of each of two commits, merged crosswise into two replacements. -/
def mergedCrosswise : List CatalogOperation :=
  let dataFile (dataFileId rowIdStart recordCount : Nat) : DataFileRow :=
    { dataFileId, tableId := 1, path := "", recordCount, fileSizeBytes := 1, rowIdStart, rowIdStartKnown := true,
      validity := ⟨autoOrder, none⟩ }
  [.appendDataFiles 0 [dataFile 1 0 10, dataFile 2 10 10] [], .appendDataFiles 0 [dataFile 3 20 10, dataFile 4 30 10] [],
    .mergeAdjacent 0 { sourceFileIds := [1, 3], newFiles := [dataFile 5 0 20] },
    .mergeAdjacent 0 { sourceFileIds := [2, 4], newFiles := [dataFile 6 10 20] }]

/-- Both replacements span both commits, hide each other, and the feed of these commits comes out empty. -/
theorem insertionFiles_hidesReplacements :
    CatalogHistory.Reachable CatalogHistory.FreshDataFileIds ((CatalogHistory.start 0 0).run mergedCrosswise) ∧
      (insertionFiles ((CatalogHistory.start 0 0).run mergedCrosswise).kv 1 2 3).toOption = some [] ∧
      ¬InsertionFeedComplete ((CatalogHistory.start 0 0).run mergedCrosswise).kv 1 2 3 := by
  have empty : (insertionFiles ((CatalogHistory.start 0 0).run mergedCrosswise).kv 1 2 3).toOption = some [] := by
    decide +kernel
  refine ⟨.run (.start 0 0) (by decide +kernel), empty, ?_⟩
  intro complete
  obtain ⟨returned, listed, found⟩ := complete
    { dataFileId := 1, tableId := 1, path := "", recordCount := 10, fileSizeBytes := 1, rowIdStartKnown := true,
      validity := ⟨2, some 4⟩ } (by decide +kernel) (by decide +kernel)
  rw [listed] at empty
  simp [Option.some.inj empty] at found

/-- One file of each of two commits, merged: the replacement hides both and holds their rows. -/
theorem insertionFiles_complete_mergedOnce :
    let dataFile (dataFileId rowIdStart recordCount : Nat) : DataFileRow :=
      { dataFileId, tableId := 1, path := "", recordCount, fileSizeBytes := 1, rowIdStart, rowIdStartKnown := true,
        validity := ⟨autoOrder, none⟩ }
    InsertionFeedComplete ((CatalogHistory.start 0 0).run
      [.appendDataFiles 0 [dataFile 1 0 10] [], .appendDataFiles 0 [dataFile 3 10 10] [],
        .mergeAdjacent 0 { sourceFileIds := [1, 3], newFiles := [dataFile 5 0 20] }]).kv 1 2 3 := by
  intro dataFile
  refine (insertionFiles_complete_iff (.run (.start 0 0) ?_) 1 2 3).mpr ?_
  · decide +kernel
  · decide +kernel

end DucklakeCatalog
