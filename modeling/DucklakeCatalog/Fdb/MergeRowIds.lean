import DucklakeCatalog.Fdb.Compaction
import DucklakeCatalog.KeyedStore.Tiling

/-! The row ids of merge replacements: derived from the sources, or left unknown. -/
namespace DucklakeCatalog.Fdb

open KeyedStore

/-! ## Row ids of sources -/

def rowIdSpan (source : DataFileRow) : Set Nat := Set.Ico source.rowIdStart (source.rowIdStart + source.recordCount)

/-- The row ids of the sources are known, lie apart and are `count` ids from `start` on. -/
structure TileRowIds (sources : List DataFileRow) (start count : Nat) : Prop where
  known : ∀ source ∈ sources, source.rowIdStartKnown = true
  apart : sources.Pairwise fun left right => Disjoint (rowIdSpan left) (rowIdSpan right)
  covers : ∀ rowId, rowId ∈ Set.Ico start (start + count) ↔ ∃ source ∈ sources, rowId ∈ rowIdSpan source

/-- No saturating end: row ids end below the last u64. -/
def RowIdsFit (sources : List DataFileRow) : Prop :=
  ∀ source ∈ sources, source.rowIdStart + source.recordCount ≤ u64Max

instance (sources : List DataFileRow) : Decidable (RowIdsFit sources) := List.decidableBAll _ sources

theorem rowIdSpan_of_empty {source : DataFileRow} (empty : source.recordCount = 0) : rowIdSpan source = ∅ := by
  rw [rowIdSpan, empty, Nat.add_zero, Set.Ico_self]

/-- The ranges of the sources that hold rows, by their starts. -/
def sourceRanges (sources : List DataFileRow) : List (Nat ×ₗ Nat) :=
  ((sources.filter fun source => source.recordCount ≠ 0).map fun source =>
    (toLex (source.rowIdStart, source.rowIdEnd) : Nat ×ₗ Nat)).insertionSort (· ≤ ·)

section

variable {sources : List DataFileRow} {start count : Nat}

theorem mem_sourceRanges (fit : RowIdsFit sources) {range : Nat ×ₗ Nat} :
    range ∈ sourceRanges sources ↔ ∃ source ∈ sources, source.recordCount ≠ 0 ∧
      range = toLex (source.rowIdStart, source.rowIdStart + source.recordCount) := by
  rw [sourceRanges, List.mem_insertionSort, List.mem_map]
  constructor
  · rintro ⟨source, member, rfl⟩
    obtain ⟨listed, some⟩ := List.mem_filter.mp member
    refine ⟨source, listed, by simpa using some, ?_⟩
    rw [DataFileRow.rowIdEnd, saturatingAdd, min_eq_left (fit source listed)]
  · rintro ⟨source, listed, some, rfl⟩
    refine ⟨source, List.mem_filter.mpr ⟨listed, by simpa using some⟩, ?_⟩
    rw [DataFileRow.rowIdEnd, saturatingAdd, min_eq_left (fit source listed)]

theorem sourceRanges_sorted (sources : List DataFileRow) : (sourceRanges sources).Pairwise (· ≤ ·) :=
  List.pairwise_insertionSort _ _

theorem tileRowIds_iff (fit : RowIdsFit sources) :
    TileRowIds sources start count ↔
      (∀ source ∈ sources, source.rowIdStartKnown = true) ∧ Tiles (sourceRanges sources) start (start + count) := by
  have spans : ∀ source ∈ sources,
      span (toLex (source.rowIdStart, source.rowIdEnd) : Nat ×ₗ Nat) = rowIdSpan source := by
    intro source listed
    rw [span, DataFileRow.rowIdEnd, saturatingAdd, min_eq_left (fit source listed)]
    rfl
  have apart_iff : (sourceRanges sources).Pairwise (fun left right => Disjoint (span left) (span right)) ↔
      sources.Pairwise fun left right => Disjoint (rowIdSpan left) (rowIdSpan right) := by
    rw [sourceRanges, (List.perm_insertionSort _ _).pairwise_iff fun apart => Disjoint.symm apart, List.pairwise_map,
      List.pairwise_filter]
    apply List.Pairwise.iff_of_mem
    intro left right leftListed rightListed
    rw [spans left leftListed, spans right rightListed]
    constructor
    · intro apart
      by_cases leftEmpty : left.recordCount = 0
      · rw [rowIdSpan_of_empty leftEmpty]
        exact Set.empty_disjoint _
      by_cases rightEmpty : right.recordCount = 0
      · rw [rowIdSpan_of_empty rightEmpty]
        exact Set.disjoint_empty _
      exact apart (by simpa using leftEmpty) (by simpa using rightEmpty)
    · exact fun apart _ _ => apart
  have covered_iff : ∀ rowId, (∃ range ∈ sourceRanges sources, rowId ∈ span range) ↔
      ∃ source ∈ sources, rowId ∈ rowIdSpan source := by
    intro rowId
    constructor
    · rintro ⟨range, member, covered⟩
      obtain ⟨source, listed, -, rfl⟩ := (mem_sourceRanges fit).mp member
      exact ⟨source, listed, covered⟩
    · rintro ⟨source, listed, covered⟩
      have some : source.recordCount ≠ 0 := by
        intro empty
        rw [rowIdSpan_of_empty empty] at covered
        exact covered
      exact ⟨_, (mem_sourceRanges fit).mpr ⟨source, listed, some, rfl⟩, covered⟩
  constructor
  · rintro ⟨known, apart, covers⟩
    exact ⟨known, Nat.le_add_right _ _, apart_iff.mpr apart, fun rowId => (covers rowId).trans (covered_iff rowId).symm⟩
  · rintro ⟨known, -, apart, covers⟩
    exact ⟨known, apart_iff.mp apart, fun rowId => (covers rowId).trans (covered_iff rowId)⟩

theorem contiguousEnd_eq_some {ranges : List (Nat ×ₗ Nat)} {start finish : Nat} (sorted : ranges.Pairwise (· ≤ ·))
    (nonempty : ∀ range ∈ ranges, (ofLex range).1 < (ofLex range).2) :
    contiguousEnd start ranges = some finish ↔ Tiles ranges start finish := by
  induction ranges generalizing start with
  | nil => rw [Tiles.nil_iff, contiguousEnd, Option.some.injEq]
  | cons first rest ih =>
    obtain ⟨least, sortedRest⟩ := List.pairwise_cons.mp sorted
    rw [Tiles.cons_iff least (nonempty first List.mem_cons_self), contiguousEnd, Option.ite_none_right_eq_some,
      ih sortedRest fun range later => nonempty range (List.mem_cons_of_mem _ later)]

/-- The test holds when the row ids of the sources are those of one replacement. -/
theorem sourceRowRangesAreContiguousForRecordCount_iff (fit : RowIdsFit sources) :
    sourceRowRangesAreContiguousForRecordCount sources count = true ↔ ∃ start, TileRowIds sources start count := by
  simp only [tileRowIds_iff fit, exists_and_left]
  have nonempty : ∀ range ∈ sourceRanges sources, (ofLex range).1 < (ofLex range).2 := by
    intro range member
    obtain ⟨source, -, some, rfl⟩ := (mem_sourceRanges fit).mp member
    exact Nat.lt_add_of_pos_right (Nat.pos_of_ne_zero some)
  have tiles : ∀ start finish, contiguousEnd start (sourceRanges sources) = some finish ↔
      Tiles (sourceRanges sources) start finish :=
    fun start finish => contiguousEnd_eq_some (sourceRanges_sorted sources) nonempty
  rw [sourceRowRangesAreContiguousForRecordCount]
  by_cases unknown : sources.any (fun source => !source.rowIdStartKnown) = true
  · obtain ⟨source, listed, notKnown⟩ := List.any_eq_true.mp unknown
    rw [if_pos unknown]
    constructor
    · intro absurd
      cases absurd
    · rintro ⟨known, -⟩
      rw [known source listed] at notKnown
      cases notKnown
  · have known : ∀ source ∈ sources, source.rowIdStartKnown = true := by
      intro source listed
      by_contra notKnown
      exact unknown (List.any_eq_true.mpr ⟨source, listed, by simpa using notKnown⟩)
    rw [if_neg unknown, and_iff_right known]
    simp only [← tiles]
    rw [← sourceRanges]
    cases shape : sourceRanges sources with
    | nil => simp [contiguousEnd, eq_comm]
    | cons first rest =>
      rw [shape] at tiles nonempty
      have begins : ∀ start finish, contiguousEnd start (first :: rest) = some finish ↔
          (ofLex first).1 = start ∧ contiguousEnd (ofLex first).2 rest = some finish := by
        intro start finish
        rw [contiguousEnd, Option.ite_none_right_eq_some]
      simp only [Option.any_eq_true, decide_eq_true_eq, begins, exists_eq_left']
      constructor
      · rintro ⟨finish, ends, length⟩
        have ordered := ((tiles _ _).mp ((begins _ _).mpr ⟨rfl, ends⟩)).ordered
        have same : (ofLex first).1 + count = finish := by omega
        exact same ▸ ends
      · intro ends
        exact ⟨_, ends, Nat.add_sub_cancel_left _ _⟩

/-! ## The least start -/

/-- No source without rows starts below all that hold rows. -/
def EmptySourcesAbove (sources : List DataFileRow) : Prop :=
  ∀ empty ∈ sources, empty.recordCount = 0 → (∃ source ∈ sources, source.recordCount ≠ 0) →
    ∃ source ∈ sources, source.recordCount ≠ 0 ∧ source.rowIdStart ≤ empty.rowIdStart

structure LeastStart (sources : List DataFileRow) (least : Nat) : Prop where
  taken : ∃ source ∈ sources, source.rowIdStart = least
  below : ∀ source ∈ sources, least ≤ source.rowIdStart

theorem knownRowIdStart_least {message : String} {least : Nat}
    (known : ∀ source ∈ sources, source.rowIdStartKnown = true)
    (success : knownRowIdStart message sources = .ok least) : LeastStart sources least := by
  rw [knownRowIdStart, List.filter_eq_self.mpr known] at success
  cases minimum : (sources.map DataFileRow.rowIdStart).min? with
  | none =>
    rw [minimum] at success
    cases success
  | some least' =>
    rw [minimum] at success
    obtain rfl := Except.ok.inj success
    obtain ⟨member, below⟩ := List.min?_eq_some_iff.mp minimum
    obtain ⟨source, listed, same⟩ := List.mem_map.mp member
    exact ⟨⟨source, listed, same⟩, fun other listed => below _ (List.mem_map_of_mem listed)⟩

/-- The least start is where the row ids begin, unless a source without rows is counted in. -/
theorem TileRowIds.least_iff {least : Nat} (tile : TileRowIds sources start count)
    (isLeast : LeastStart sources least) : TileRowIds sources least count ↔ EmptySourcesAbove sources := by
  have inside : ∀ source ∈ sources, source.recordCount ≠ 0 → source.rowIdStart ∈ Set.Ico start (start + count) := by
    intro source listed some
    exact (tile.covers _).mpr ⟨source, listed, le_rfl, Nat.lt_add_of_pos_right (Nat.pos_of_ne_zero some)⟩
  have nonempty : ∀ {rowId : Nat} {source : DataFileRow}, rowId ∈ rowIdSpan source → source.recordCount ≠ 0 := by
    intro rowId source covered empty
    rw [rowIdSpan_of_empty empty] at covered
    exact covered
  rcases Nat.eq_zero_or_pos count with rfl | positive
  · have noRows : ∀ source ∈ sources, source.recordCount = 0 := by
      intro source listed
      by_contra some
      have range := inside source listed some
      exact absurd range.2 (not_lt.mpr range.1)
    constructor
    · rintro - empty - - ⟨source, listed, some⟩
      exact absurd (noRows source listed) some
    · intro _
      refine ⟨tile.known, tile.apart, fun rowId => ?_⟩
      rw [← tile.covers rowId]
      simp
  · have begins : ∃ source ∈ sources, source.recordCount ≠ 0 ∧ source.rowIdStart = start := by
      obtain ⟨source, listed, covered⟩ := (tile.covers start).mp ⟨le_rfl, Nat.lt_add_of_pos_right positive⟩
      have some := nonempty covered
      exact ⟨source, listed, some, le_antisymm covered.1 (inside source listed some).1⟩
    obtain ⟨first, firstListed, firstSome, firstStart⟩ := begins
    constructor
    · intro moved empty emptyListed _ _
      refine ⟨first, firstListed, firstSome, ?_⟩
      obtain ⟨source, listed, covered⟩ := (moved.covers least).mp ⟨le_rfl, Nat.lt_add_of_pos_right positive⟩
      calc first.rowIdStart = start := firstStart
        _ ≤ source.rowIdStart := (inside source listed (nonempty covered)).1
        _ ≤ least := covered.1
        _ ≤ empty.rowIdStart := isLeast.below empty emptyListed
    · intro above
      have least_eq : least = start := by
        apply le_antisymm
        · exact firstStart ▸ isLeast.below first firstListed
        · obtain ⟨source, listed, rfl⟩ := isLeast.taken
          by_cases empty : source.recordCount = 0
          · obtain ⟨other, otherListed, some, below⟩ := above source listed empty ⟨first, firstListed, firstSome⟩
            exact (inside other otherListed some).1.trans below
          · exact (inside source listed empty).1
      exact least_eq ▸ tile

end

/-! ## Replacements -/

/-- The sources a replacement stands for: all of them when it is the only one, else those of its partition. -/
def standsFor (sources : List DataFileRow) (sourcePartitionValues : List FilePartitionValueRow)
    (compaction : DataFileCompaction) (dataFileId : DataFileId) : List DataFileRow :=
  if compaction.newFiles.length = 1 then sources
  else sourcesOfPartition sources sourcePartitionValues (partitionKeyFromRows compaction.partitionValues dataFileId)

structure SameRowIds (file result : DataFileRow) : Prop where
  dataFileId : result.dataFileId = file.dataFileId
  recordCount : result.recordCount = file.recordCount
  rowIdStart : result.rowIdStart = file.rowIdStart
  rowIdStartKnown : result.rowIdStartKnown = file.rowIdStartKnown

/-- The row ids of a replacement: known from the least start of its sources when they tile, else unknown. -/
structure DerivedFrom (sources : List DataFileRow) (file result : DataFileRow) : Prop where
  dataFileId : result.dataFileId = file.dataFileId
  recordCount : result.recordCount = file.recordCount
  known : result.rowIdStartKnown = true ↔ ∃ start, TileRowIds sources start file.recordCount
  least : result.rowIdStartKnown = true → LeastStart sources result.rowIdStart

theorem deriveReplacementRowIds_derived {message : String} {sources : List DataFileRow} {newFile result : DataFileRow}
    (fit : RowIdsFit sources) (unknown : newFile.rowIdStartKnown = false)
    (success : deriveReplacementRowIds message sources newFile = .ok result) : DerivedFrom sources newFile result := by
  have contiguous : sourceRowRangesAreContiguousForRecordCount sources newFile.recordCount = true ↔ _ :=
    sourceRowRangesAreContiguousForRecordCount_iff fit
  rw [deriveReplacementRowIds] at success
  split at success
  · rename_i holds
    obtain ⟨start, tile⟩ := contiguous.mp holds
    obtain ⟨least, found, built⟩ := bind_eq_ok.mp success
    obtain rfl := Except.ok.inj built
    exact ⟨rfl, rfl, iff_of_true rfl ⟨start, tile⟩, fun _ => knownRowIdStart_least tile.known found⟩
  · rename_i fails
    obtain rfl := Except.ok.inj success
    have unknown' : ¬newFile.rowIdStartKnown = true := by
      rw [unknown]
      exact Bool.false_ne_true
    exact ⟨rfl, rfl, iff_of_false unknown' (mt contiguous.mpr fails), fun known => absurd known unknown'⟩

theorem DerivedFrom.trans {sources : List DataFileRow} {file middle result : DataFileRow}
    (derived : DerivedFrom sources file middle) (same : SameRowIds middle result) :
    DerivedFrom sources file result where
  dataFileId := same.dataFileId.trans derived.dataFileId
  recordCount := same.recordCount.trans derived.recordCount
  known := by rw [same.rowIdStartKnown, derived.known]
  least known := by
    rw [same.rowIdStart]
    exact derived.least (same.rowIdStartKnown ▸ known)

/-- Every file has its result, every result its file. -/
structure Results (Related : DataFileRow → DataFileRow → Prop) (files results : List DataFileRow) : Prop where
  source : ∀ result ∈ results, ∃ file ∈ files, Related file result
  accepted : ∀ file ∈ files, ∃ result ∈ results, Related file result

theorem mapM_results {Related : DataFileRow → DataFileRow → Prop} {step : DataFileRow → CatalogResult DataFileRow}
    {files results : List DataFileRow} (success : files.mapM step = .ok results)
    (related : ∀ file ∈ files, ∀ result, step file = .ok result → Related file result) :
    Results Related files results where
  source result member := by
    obtain ⟨file, listed, taken⟩ := mapM_source success member
    exact ⟨file, listed, related file listed result taken⟩
  accepted file listed := by
    obtain ⟨result, member, taken⟩ := mapM_accepts success listed
    exact ⟨result, member, related file listed result taken⟩

theorem applyMergeVisibilityFromSources_same (sources : List DataFileRow) (newFile : DataFileRow) :
    SameRowIds newFile (applyMergeVisibilityFromSources sources newFile) := by
  cases sources with
  | nil => exact ⟨rfl, rfl, rfl, rfl⟩
  | cons first rest =>
    rw [applyMergeVisibilityFromSources]
    split
    · exact ⟨rfl, rfl, rfl, rfl⟩
    · exact ⟨rfl, rfl, rfl, rfl⟩

variable {sources : List DataFileRow} {sourcePartitionValues : List FilePartitionValueRow}
  {compaction : DataFileCompaction} {newFiles results : List DataFileRow}

theorem applyMergeReplacementVisibility_same
    (success : applyMergeReplacementVisibility sources sourcePartitionValues compaction newFiles = .ok results) :
    Results SameRowIds newFiles results := by
  rw [applyMergeReplacementVisibility] at success
  split at success
  · obtain rfl := Except.ok.inj success
    exact ⟨fun file listed => ⟨file, listed, rfl, rfl, rfl, rfl⟩, fun file listed => ⟨file, listed, rfl, rfl, rfl, rfl⟩⟩
  · apply mapM_results success
    intro file _ result taken
    dsimp only at taken
    split at taken
    · cases taken
    · generalize (if newFiles.length = 1 ∨ partitionKeyFromRows compaction.partitionValues file.dataFileId = [] then
        sources else _) = covered at taken
      split at taken
      · obtain rfl := Except.ok.inj taken
        exact ⟨rfl, rfl, rfl, rfl⟩
      · obtain rfl := Except.ok.inj taken
        exact applyMergeVisibilityFromSources_same _ _

theorem sourcesOfPartition_fit (fit : RowIdsFit sources) (key : List (Nat ×ₗ String)) :
    RowIdsFit (sourcesOfPartition sources sourcePartitionValues key) :=
  fun source member => fit source (List.mem_filter.mp member).1

/-- Replacements given without a row-id start have theirs derived from the sources they stand for. -/
theorem normalizeMergeReplacements_derived (fit : RowIdsFit sources)
    (unknown : ∀ newFile ∈ compaction.newFiles, newFile.rowIdStartKnown = false)
    (success : normalizeMergeReplacements sources sourcePartitionValues compaction = .ok results) :
    Results (fun file => DerivedFrom (standsFor sources sourcePartitionValues compaction file.dataFileId) file)
      compaction.newFiles results := by
  obtain ⟨_, -, derives⟩ := bind_eq_ok.mp success
  obtain ⟨derived, derives, shown⟩ := bind_eq_ok.mp derives
  have same := applyMergeReplacementVisibility_same shown
  have through : Results
      (fun file => DerivedFrom (standsFor sources sourcePartitionValues compaction file.dataFileId) file)
      compaction.newFiles derived := by
    cases shape : compaction.newFiles with
    | nil =>
      rw [shape] at derives
      obtain rfl := Except.ok.inj derives
      exact ⟨fun file listed => absurd listed List.not_mem_nil, fun file listed => absurd listed List.not_mem_nil⟩
    | cons file rest =>
      rw [shape] at derives unknown
      have notKnown := unknown file List.mem_cons_self
      cases rest with
      | nil =>
        have all : standsFor sources sourcePartitionValues compaction file.dataFileId = sources := by
          rw [standsFor, if_pos (by rw [shape]; rfl)]
        have cleared : ∃ cleared, clearSparseMergeReplacementRowIds sources [file] = [cleared] ∧
            cleared.dataFileId = file.dataFileId ∧ cleared.recordCount = file.recordCount ∧
            cleared.rowIdStartKnown = false := by
          rw [clearSparseMergeReplacementRowIds]
          split
          · exact ⟨file, rfl, rfl, rfl, notKnown⟩
          · exact ⟨_, rfl, rfl, rfl, rfl⟩
        obtain ⟨cleared, cleared_eq, sameId, sameCount, unknownStill⟩ := cleared
        rw [cleared_eq, deriveMergeReplacementRowIds, if_neg (by simp [unknownStill])] at derives
        obtain ⟨result, taken, built⟩ := bind_eq_ok.mp derives
        obtain rfl := Except.ok.inj built
        have derived := deriveReplacementRowIds_derived fit unknownStill taken
        have related :
            DerivedFrom (standsFor sources sourcePartitionValues compaction file.dataFileId) file result := by
          rw [all]
          exact ⟨derived.dataFileId.trans sameId, derived.recordCount.trans sameCount, sameCount ▸ derived.known,
            derived.least⟩
        constructor
        · intro other member
          exact ⟨file, List.mem_cons_self, List.mem_singleton.mp member ▸ related⟩
        · intro other member
          exact ⟨result, List.mem_cons_self, List.mem_singleton.mp member ▸ related⟩
      | cons second others =>
        have several : ¬compaction.newFiles.length = 1 := by
          rw [shape, List.length_cons, List.length_cons]
          omega
        have kept : clearSparseMergeReplacementRowIds sources (file :: second :: others) = file :: second :: others :=
          rfl
        have notAllKnown : ¬(file :: second :: others).all DataFileRow.rowIdStartKnown = true := by
          simp [notKnown]
        rw [kept, deriveMergeReplacementRowIds.eq_def, if_neg notAllKnown] at derives
        apply mapM_results derives
        intro other member result taken
        rw [standsFor, if_neg several]
        have otherUnknown := unknown other member
        rw [otherUnknown, if_neg Bool.false_ne_true] at taken
        exact deriveReplacementRowIds_derived (sourcesOfPartition_fit fit _) otherUnknown taken
  constructor
  · intro result member
    obtain ⟨middle, listed, sameRowIds⟩ := same.source result member
    obtain ⟨file, fileListed, fromSources⟩ := through.source middle listed
    exact ⟨file, fileListed, fromSources.trans sameRowIds⟩
  · intro file listed
    obtain ⟨middle, member, fromSources⟩ := through.accepted file listed
    obtain ⟨result, resultMember, sameRowIds⟩ := same.accepted middle member
    exact ⟨result, resultMember, fromSources.trans sameRowIds⟩

/-! ## Exact row ids -/

/-- What is promised of the replacements: a known one has the row ids of its sources, and a single one is unknown
only where there are no such row ids to have. -/
structure ExactRowIds (sources : List DataFileRow) (sourcePartitionValues : List FilePartitionValueRow)
    (compaction : DataFileCompaction) (results : List DataFileRow) : Prop where
  known : ∀ result ∈ results, result.rowIdStartKnown = true →
    TileRowIds (standsFor sources sourcePartitionValues compaction result.dataFileId) result.rowIdStart
      result.recordCount
  single : compaction.newFiles.length = 1 → ∀ result ∈ results,
    (result.rowIdStartKnown = false ↔ ¬∃ start, TileRowIds sources start result.recordCount)

/-- Wherever the sources of a replacement tile, those without rows do not start first. -/
def EmptySourcesCounted (sources : List DataFileRow) (sourcePartitionValues : List FilePartitionValueRow)
    (compaction : DataFileCompaction) : Prop :=
  ∀ newFile ∈ compaction.newFiles,
    (∃ start, TileRowIds (standsFor sources sourcePartitionValues compaction newFile.dataFileId) start
      newFile.recordCount) →
    EmptySourcesAbove (standsFor sources sourcePartitionValues compaction newFile.dataFileId)

/-- The derived row ids are exact if and only if no source without rows starts below the sources with rows. -/
theorem normalizeMergeReplacements_exact_iff (fit : RowIdsFit sources)
    (unknown : ∀ newFile ∈ compaction.newFiles, newFile.rowIdStartKnown = false)
    (success : normalizeMergeReplacements sources sourcePartitionValues compaction = .ok results) :
    ExactRowIds sources sourcePartitionValues compaction results ↔
      EmptySourcesCounted sources sourcePartitionValues compaction := by
  have derived := normalizeMergeReplacements_derived fit unknown success
  constructor
  · rintro ⟨known, -⟩ newFile listed ⟨start, tile⟩
    obtain ⟨result, member, fromSources⟩ := derived.accepted newFile listed
    have isKnown := fromSources.known.mpr ⟨start, tile⟩
    have exact := known result member isKnown
    rw [fromSources.dataFileId, fromSources.recordCount] at exact
    exact (tile.least_iff (fromSources.least isKnown)).mp exact
  · intro counted
    constructor
    · intro result member isKnown
      obtain ⟨newFile, listed, fromSources⟩ := derived.source result member
      obtain ⟨start, tile⟩ := fromSources.known.mp isKnown
      rw [fromSources.dataFileId, fromSources.recordCount]
      exact (tile.least_iff (fromSources.least isKnown)).mpr (counted newFile listed ⟨start, tile⟩)
    · intro single result member
      obtain ⟨newFile, listed, fromSources⟩ := derived.source result member
      have all : standsFor sources sourcePartitionValues compaction newFile.dataFileId = sources := by
        rw [standsFor, if_pos single]
      rw [fromSources.recordCount, ← all, ← fromSources.known, Bool.not_eq_true]

/-- A file of the table with rows from `rowIdStart` on. -/
def mergedSource (dataFileId rowIdStart recordCount : Nat) : DataFileRow :=
  { dataFileId, tableId := 1, path := "", recordCount, fileSizeBytes := 1, rowIdStart, rowIdStartKnown := true,
    validity := { beginOrder := 1, endOrder := none } }

def mergeOfTwo : DataFileCompaction :=
  { sourceFileIds := [1, 2]
    newFiles := [{ mergedSource 3 0 10 with rowIdStartKnown := false }] }

/-- A file without rows at row id 10 is merged with one of ten rows from 20 on: the replacement
is given the row ids from 10 to 20. -/
theorem normalizeMergeReplacements_emptyFirst :
    RowIdsFit [mergedSource 1 10 0, mergedSource 2 20 10] ∧
    (∀ newFile ∈ mergeOfTwo.newFiles, newFile.rowIdStartKnown = false) ∧
    ∃ result : DataFileRow,
      normalizeMergeReplacements [mergedSource 1 10 0, mergedSource 2 20 10] [] mergeOfTwo = .ok [result] ∧
      result.rowIdStartKnown = true ∧ result.rowIdStart = 10 ∧ result.recordCount = 10 ∧
      ¬ExactRowIds [mergedSource 1 10 0, mergedSource 2 20 10] [] mergeOfTwo [result] := by
  refine ⟨by decide, by decide, mergedSource 3 10 10, by decide +kernel, rfl, rfl, rfl, ?_⟩
  intro exact
  have tile := exact.known _ List.mem_cons_self rfl
  obtain ⟨source, member, covered⟩ := (tile.covers 10).mp ⟨le_rfl, by decide⟩
  have listed : source = mergedSource 1 10 0 ∨ source = mergedSource 2 20 10 := by
    simpa [standsFor, mergeOfTwo] using member
  rcases listed with rfl | rfl
  · exact absurd covered.2 (by decide)
  · exact absurd covered.1 (by decide)

/-- The same merge with the empty file behind the other. -/
theorem normalizeMergeReplacements_exact_iff_emptyLast :
    ∃ results, normalizeMergeReplacements [mergedSource 1 40 0, mergedSource 2 20 10] [] mergeOfTwo = .ok results ∧
      (ExactRowIds [mergedSource 1 40 0, mergedSource 2 20 10] [] mergeOfTwo results ↔
        EmptySourcesCounted [mergedSource 1 40 0, mergedSource 2 20 10] [] mergeOfTwo) :=
  have success : normalizeMergeReplacements [mergedSource 1 40 0, mergedSource 2 20 10] [] mergeOfTwo =
      .ok [mergedSource 3 20 10] := by decide +kernel
  ⟨_, success, normalizeMergeReplacements_exact_iff (by decide) (by decide) success⟩

end DucklakeCatalog.Fdb
