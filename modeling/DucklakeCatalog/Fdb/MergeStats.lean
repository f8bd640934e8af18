import DucklakeCatalog.Fdb.MergeRowIds
import DucklakeCatalog.Stats.GlobalBounds
import DucklakeCatalog.Stats.ScalarSpellings

/-! Column statistics of merge replacements, put together from the statistics of the sources. -/
namespace DucklakeCatalog.Fdb

open KeyedStore ScalarOrder

/-! ## Merging -/

section

variable (other : OtherScalarOrder) (scalarType : CatalogScalarType)

/-- The candidate, when it is ahead of the current bound or there is none. -/
def aheadOf (ahead : Ordering) (current candidate : Option String) : Option String :=
  match candidate with
  | none => current
  | some value =>
    if current.all fun current => (compareTypedScalars other scalarType value current).any (· == ahead) then some value
    else current

def extremaOver (minValue maxValue : Option String) : List FileColumnStatsRow → Option String × Option String
  | [] => (minValue, maxValue)
  | row :: rest =>
    if typedExtremaAreInvalid other scalarType row.valueCount row.nullCount row.minValue row.maxValue then (none, none)
    else
      extremaOver (aheadOf other scalarType .lt minValue row.minValue)
        (aheadOf other scalarType .gt maxValue row.maxValue) rest

def mergeStatExtrema (sourceStats : List FileColumnStatsRow) : Option String × Option String :=
  extremaOver other scalarType none none sourceStats

end

/-- The rows of one column among the statistics of the sources. -/
def statsOfColumn (allStats : List FileColumnStatsRow) (sources : List DataFileRow) (columnId : ColumnId) :
    List FileColumnStatsRow :=
  allStats.filter fun stat => (sources.map DataFileRow.dataFileId).contains stat.dataFileId && stat.columnId = columnId

def sourcesWithoutStats (sources : List DataFileRow) (sourceStats : List FileColumnStatsRow) : List DataFileRow :=
  sources.filter fun source => !(sourceStats.map FileColumnStatsRow.dataFileId).contains source.dataFileId

/-- A source without a row for the column counts as all null. -/
def mergedColumnStats (other : OtherScalarOrder) (allStats : List FileColumnStatsRow) (sources : List DataFileRow)
    (newFile : DataFileRow) (columnTypes : ColumnId → CatalogScalarType) (columnId : ColumnId) : FileColumnStatsRow :=
  let sourceStats := statsOfColumn allStats sources columnId
  let missingColumnNulls := ((sourcesWithoutStats sources sourceStats).map DataFileRow.recordCount).sum
  let extrema := mergeStatExtrema other (columnTypes columnId) sourceStats
  { dataFileId := newFile.dataFileId
    tableId := newFile.tableId
    columnId
    valueCount := some newFile.recordCount
    nullCount := (sourceStats.map FileColumnStatsRow.nullCount).sum + missingColumnNulls
    minValue := extrema.1
    maxValue := extrema.2
    extraStats := none }

/-- The columns of the sources' statistics. -/
def statsColumns (allStats : List FileColumnStatsRow) (sources : List DataFileRow) : List ColumnId :=
  (((allStats.filter fun stat => (sources.map DataFileRow.dataFileId).contains stat.dataFileId).map
    FileColumnStatsRow.columnId).dedup).insertionSort (· ≤ ·)

def mergeStatsForReplacement (other : OtherScalarOrder) (allStats : List FileColumnStatsRow)
    (sources : List DataFileRow) (newFile : DataFileRow) (columnTypes : ColumnId → CatalogScalarType) :
    List FileColumnStatsRow :=
  (statsColumns allStats sources).map (mergedColumnStats other allStats sources newFile columnTypes)

/-- The types of the table as it is now; a column it has not is of no supported type. -/
def currentColumnTypes (kv : CatalogKv) (tableId : TableId) (columnId : ColumnId) : CatalogScalarType :=
  ((kv.currentTableRow.get? tableId).bind fun table =>
    table.columns.reverse.find? fun column => column.columnId = columnId).elim .unsupported
      fun column => normalizeCatalogScalarType column.columnType

def deriveMergeReplacementStats (other : OtherScalarOrder) (kv : CatalogKv) (tableId : TableId)
    (sources : List DataFileRow) (sourcePartitionValues : List FilePartitionValueRow)
    (compaction : DataFileCompaction) (newFiles : List DataFileRow) : List FileColumnStatsRow :=
  let sourceStats := listFileColumnStatsForDataFileIds kv (sources.map DataFileRow.dataFileId)
  newFiles.flatMap fun newFile =>
    let sources := if newFiles.length = 1 then sources
      else sourcesOfPartition sources sourcePartitionValues
        (partitionKeyFromRows compaction.partitionValues newFile.dataFileId)
    let scopedStats := sources.flatMap fun source => sourceStats.filter fun row => row.dataFileId = source.dataFileId
    mergeStatsForReplacement other scopedStats sources newFile (currentColumnTypes kv tableId)

/-! ## What the statistics should say -/

/-- Sources with the values of their columns; statistics say what is so, one row at most for a file and
a column. -/
structure FaithfulSources (columnTypes : ColumnId → CatalogScalarType) (sources : List DataFileRow)
    (allStats : List FileColumnStatsRow) (values : DataFileId → ColumnId → List (Option String)) : Prop where
  distinct : (sources.map DataFileRow.dataFileId).Nodup
  once : (allStats.map fun stat => (stat.dataFileId, stat.columnId)).Nodup
  faithful : ∀ stat ∈ allStats, stat.dataFileId ∈ sources.map DataFileRow.dataFileId →
    stat.Faithful (columnTypes stat.columnId) (values stat.dataFileId stat.columnId)
  counted : ∀ source ∈ sources, ∀ columnId, (values source.dataFileId columnId).length = source.recordCount

def nullsOf (values : DataFileId → ColumnId → List (Option String)) (columnId : ColumnId) (dataFileId : DataFileId) :
    Nat :=
  (values dataFileId columnId).countP (·.isNone)

/-- Present bounds hold for every value of these sources. -/
def BoundValues (other : OtherScalarOrder) (columnTypes : ColumnId → CatalogScalarType) (sources : List DataFileRow)
    (values : DataFileId → ColumnId → List (Option String)) (merged : FileColumnStatsRow) : Prop :=
  ∀ minValue maxValue, merged.minValue = some minValue → merged.maxValue = some maxValue →
    ∀ source ∈ sources, ∀ value, some value ∈ values source.dataFileId merged.columnId →
      TextLe other (columnTypes merged.columnId) minValue value ∧
        TextLe other (columnTypes merged.columnId) value maxValue

def sourcesWithStats (sources : List DataFileRow) (sourceStats : List FileColumnStatsRow) : List DataFileRow :=
  sources.filter fun source => (sourceStats.map FileColumnStatsRow.dataFileId).contains source.dataFileId

/-- The bounds hold for the sources with a row; the nulls are between those known and all rows. -/
structure MergedSound (other : OtherScalarOrder) (columnTypes : ColumnId → CatalogScalarType)
    (sources : List DataFileRow) (allStats : List FileColumnStatsRow)
    (values : DataFileId → ColumnId → List (Option String)) (newFile : DataFileRow) (merged : FileColumnStatsRow) :
    Prop where
  bounds : BoundValues other columnTypes (sourcesWithStats sources (statsOfColumn allStats sources merged.columnId))
    values merged
  nullsKnown : ((statsOfColumn allStats sources merged.columnId).map fun stat =>
    nullsOf values merged.columnId stat.dataFileId).sum ≤ merged.nullCount
  nullsFit : merged.nullCount ≤ newFile.recordCount

/-- The same columns in another order of the sources, with bounds where there were bounds. -/
def SamePresence (left right : List FileColumnStatsRow) : Prop :=
  ∀ merged ∈ left, ∃ same ∈ right, same.columnId = merged.columnId ∧
    same.minValue.isSome = merged.minValue.isSome ∧ same.maxValue.isSome = merged.maxValue.isSome

/-- Where all rows of a column can be merged and some have bounds: the values of the sources that have no row
lie between the bounds of those that have one. -/
def UnlistedWithin (other : OtherScalarOrder) (columnTypes : ColumnId → CatalogScalarType)
    (sources : List DataFileRow) (allStats : List FileColumnStatsRow)
    (values : DataFileId → ColumnId → List (Option String)) : Prop :=
  ∀ columnId,
    (∀ stat ∈ statsOfColumn allStats sources columnId,
      typedExtremaAreInvalid other (columnTypes columnId) stat.valueCount stat.nullCount stat.minValue
        stat.maxValue = false) →
    (∃ stat ∈ statsOfColumn allStats sources columnId, stat.minValue.isSome = true) →
    ∀ source ∈ sourcesWithoutStats sources (statsOfColumn allStats sources columnId),
      ∀ value, some value ∈ values source.dataFileId columnId →
        (∃ stat ∈ statsOfColumn allStats sources columnId, ∃ minValue, stat.minValue = some minValue ∧
          TextLe other (columnTypes columnId) minValue value) ∧
        ∃ stat ∈ statsOfColumn allStats sources columnId, ∃ maxValue, stat.maxValue = some maxValue ∧
          TextLe other (columnTypes columnId) value maxValue

/-! ## Bounds over rows -/

/-- The bounds of rows that can be merged: there if some row has bounds, each taken from a row and as wide as
that of every row. -/
structure MergedBounds (other : OtherScalarOrder) (scalarType : CatalogScalarType) (rows : List FileColumnStatsRow) 
    (merged : Option String × Option String) : Prop where
  minimum : merged.1.isSome = true ↔ ∃ row ∈ rows, row.minValue.isSome = true
  maximum : merged.2.isSome = true ↔ ∃ row ∈ rows, row.minValue.isSome = true
  least : ∀ minValue, merged.1 = some minValue → (∃ row ∈ rows, row.minValue = some minValue) ∧
    ∀ row ∈ rows, ∀ bound, row.minValue = some bound → TextLe other scalarType minValue bound
  greatest : ∀ maxValue, merged.2 = some maxValue → (∃ row ∈ rows, row.maxValue = some maxValue) ∧
    ∀ row ∈ rows, ∀ bound, row.maxValue = some bound → TextLe other scalarType bound maxValue

variable {value : String} {row : FileColumnStatsRow}

section

variable {scalarType : CatalogScalarType} (exact : scalarType.isExact = true) (other : OtherScalarOrder)
  {ahead : Ordering}

/-- Both texts can be read, and the value is not ahead of the bound. -/
def NotAhead (scalarType : CatalogScalarType) (ahead : Ordering) (bound value : String) : Prop :=
  ∃ limit held, scalarValue scalarType bound = some limit ∧ scalarValue scalarType value = some held ∧
    compare held limit ≠ ahead

variable {bound : String} {rows : List FileColumnStatsRow}

theorem NotAhead.trans (isAhead : ahead = .lt ∨ ahead = .gt) {middle : String}
    (first : NotAhead scalarType ahead bound middle) (second : NotAhead scalarType ahead middle value) :
    NotAhead scalarType ahead bound value := by
  obtain ⟨limit, between, readBound, readMiddle, lower⟩ := first
  obtain ⟨between', held, readMiddle', readValue, upper⟩ := second
  obtain rfl := Option.some.inj (readMiddle.symm.trans readMiddle')
  refine ⟨limit, held, readBound, readValue, ?_⟩
  rcases isAhead with rfl | rfl
  · rw [ne_eq, compare_lt_iff_lt, not_lt] at *
    exact lower.trans upper
  · rw [ne_eq, compare_gt_iff_gt, not_lt] at *
    exact upper.trans lower

theorem NotAhead.refl (isAhead : ahead = .lt ∨ ahead = .gt) {limit : ScalarValue}
    (read : scalarValue scalarType bound = some limit) : NotAhead scalarType ahead bound bound := by
  refine ⟨limit, limit, read, read, ?_⟩
  rw [compare_eq_iff_eq.mpr rfl]
  rcases isAhead with rfl | rfl
  · exact Ordering.noConfusion
  · exact Ordering.noConfusion

/-- A bound that is there can be read. -/
def Readable (scalarType : CatalogScalarType) (bound : Option String) : Prop :=
  ∀ text, bound = some text → ∃ limit, scalarValue scalarType text = some limit

include exact

theorem notAhead_lt_iff :
    NotAhead scalarType .lt bound value ↔ TextLe other scalarType bound value := by
  rw [textLe_iff exact]
  simp only [NotAhead, ne_eq, compare_lt_iff_lt, not_lt]

theorem notAhead_gt_iff :
    NotAhead scalarType .gt bound value ↔ TextLe other scalarType value bound := by
  rw [textLe_iff exact]
  simp only [NotAhead, ne_eq, compare_gt_iff_gt, not_lt]
  constructor
  · rintro ⟨limit, held, readBound, readValue, le⟩
    exact ⟨held, limit, readValue, readBound, le⟩
  · rintro ⟨held, limit, readValue, readBound, le⟩
    exact ⟨limit, held, readBound, readValue, le⟩

/-- The step keeps one of the two bounds, and neither is ahead of the kept one. -/
theorem aheadOf_cases (isAhead : ahead = .lt ∨ ahead = .gt) {current candidate : Option String}
    (currentRead : Readable scalarType current) (candidateRead : Readable scalarType candidate) :
    ((aheadOf other scalarType ahead current candidate).isSome = true ↔
      current.isSome = true ∨ candidate.isSome = true) ∧
    ∀ kept, aheadOf other scalarType ahead current candidate = some kept →
      (current = some kept ∨ candidate = some kept) ∧
      ∀ bound, current = some bound ∨ candidate = some bound → NotAhead scalarType ahead kept bound := by
  cases candidate with
  | none =>
    refine ⟨by simp [aheadOf], ?_⟩
    rintro kept rfl
    refine ⟨.inl rfl, ?_⟩
    rintro bound (same | absent)
    · obtain ⟨limit, read⟩ := currentRead bound same
      obtain rfl := Option.some.inj same
      exact NotAhead.refl isAhead read
    · cases absent
  | some value =>
    obtain ⟨held, readValue⟩ := candidateRead value rfl
    cases current with
    | none =>
      refine ⟨by simp [aheadOf], ?_⟩
      rintro kept same
      obtain rfl : value = kept := Option.some.inj same
      refine ⟨.inr rfl, ?_⟩
      rintro bound (absent | same)
      · cases absent
      · exact Option.some.inj same ▸ NotAhead.refl isAhead readValue
    | some current =>
      obtain ⟨limit, readCurrent⟩ := currentRead current rfl
      have compared : compareTypedScalars other scalarType value current = some (compare held limit) := by
        rw [compareTypedScalars_eq exact, readValue, readCurrent]
        rfl
      simp only [aheadOf, Option.all_some, compared, Option.any_some, beq_iff_eq]
      by_cases isAheadOf : compare held limit = ahead
      · simp only [isAheadOf, if_true]
        refine ⟨by simp, ?_⟩
        rintro kept same
        obtain rfl : value = kept := Option.some.inj same
        refine ⟨.inr rfl, ?_⟩
        rintro bound (same | same)
        · obtain rfl := Option.some.inj same
          refine ⟨held, limit, readValue, readCurrent, ?_⟩
          rcases isAhead with rfl | rfl
          · rw [compare_lt_iff_lt] at isAheadOf
            rw [ne_eq, compare_lt_iff_lt, not_lt]
            exact isAheadOf.le
          · rw [compare_gt_iff_gt] at isAheadOf
            rw [ne_eq, compare_gt_iff_gt, not_lt]
            exact isAheadOf.le
        · exact Option.some.inj same ▸ NotAhead.refl isAhead readValue
      · simp only [isAheadOf, if_false]
        refine ⟨by simp, ?_⟩
        rintro kept same
        obtain rfl : current = kept := Option.some.inj same
        refine ⟨.inl rfl, ?_⟩
        rintro bound (same | same)
        · exact Option.some.inj same ▸ NotAhead.refl isAhead readCurrent
        · obtain rfl := Option.some.inj same
          exact ⟨limit, held, readCurrent, readValue, isAheadOf⟩

/-- Of all bounds one is kept, and none is ahead of it. -/
theorem foldl_aheadOf (isAhead : ahead = .lt ∨ ahead = .gt) {candidates : List (Option String)}
    {start : Option String} (startRead : Readable scalarType start)
    (candidatesRead : ∀ candidate ∈ candidates, Readable scalarType candidate) :
    ((candidates.foldl (aheadOf other scalarType ahead) start).isSome = true ↔
      start.isSome = true ∨ ∃ candidate ∈ candidates, candidate.isSome = true) ∧
    ∀ kept, candidates.foldl (aheadOf other scalarType ahead) start = some kept →
      (start = some kept ∨ some kept ∈ candidates) ∧
      ∀ bound, start = some bound ∨ some bound ∈ candidates → NotAhead scalarType ahead kept bound := by
  induction candidates generalizing start with
  | nil =>
    refine ⟨by simp, ?_⟩
    rintro kept (rfl : start = some kept)
    refine ⟨.inl rfl, ?_⟩
    rintro bound (same | absent)
    · obtain ⟨limit, read⟩ := startRead bound same
      obtain rfl := Option.some.inj same
      exact NotAhead.refl isAhead read
    · cases absent
  | cons candidate rest ih =>
    have candidateRead := candidatesRead candidate List.mem_cons_self
    obtain ⟨stepSome, stepKept⟩ := aheadOf_cases exact other isAhead startRead candidateRead
    have nextRead : Readable scalarType (aheadOf other scalarType ahead start candidate) := by
      intro text kept
      rcases (stepKept text kept).1 with same | same
      · exact startRead text same
      · exact candidateRead text same
    obtain ⟨restSome, restKept⟩ := ih nextRead fun other member => candidatesRead other (List.mem_cons_of_mem _ member)
    rw [List.foldl_cons]
    constructor
    · rw [restSome, stepSome, List.exists_mem_cons_iff, or_assoc]
    · intro kept found
      obtain ⟨source, notAhead⟩ := restKept kept found
      constructor
      · rcases source with next | later
        · rcases (stepKept kept next).1 with same | same
          · exact .inl same
          · exact .inr (same ▸ List.mem_cons_self)
        · exact .inr (List.mem_cons_of_mem _ later)
      · intro bound offered
        have through : start = some bound ∨ candidate = some bound → NotAhead scalarType ahead kept bound := by
          intro now
          have stepped : (aheadOf other scalarType ahead start candidate).isSome = true := by
            rw [stepSome]
            rcases now with same | same
            · exact .inl (Option.isSome_iff_exists.mpr ⟨bound, same⟩)
            · exact .inr (Option.isSome_iff_exists.mpr ⟨bound, same⟩)
          obtain ⟨middle, next⟩ := Option.isSome_iff_exists.mp stepped
          exact (notAhead middle (.inl next)).trans isAhead ((stepKept middle next).2 bound now)
        rcases (or_congr_right List.mem_cons).mp offered with isStart | isCandidate | later
        · exact through (.inl isStart)
        · exact through (.inr isCandidate.symm)
        · exact notAhead bound (.inr later)

/-- A row whose bounds can be merged has readable bounds, or none. -/
theorem readable_of_valid
    (valid : typedExtremaAreInvalid other scalarType row.valueCount row.nullCount row.minValue row.maxValue = false) :
    Readable scalarType row.minValue ∧ Readable scalarType row.maxValue ∧
      row.minValue.isSome = row.maxValue.isSome := by
  have accepted : fileEvidence scalarType row ≠ .refute := by
    intro refuted
    rw [← typedExtremaAreInvalid_iff exact other row, valid] at refuted
    cases refuted
  simp only [fileEvidence] at accepted
  cases lowest : row.minValue with
  | none =>
    cases highest : row.maxValue with
    | none => exact ⟨(fun _ absent => by cases absent), (fun _ absent => by cases absent), rfl⟩
    | some maxValue => simp [lowest, highest] at accepted
  | some minValue =>
    cases highest : row.maxValue with
    | none => simp [lowest, highest] at accepted
    | some maxValue =>
      rw [lowest, highest] at accepted
      dsimp only at accepted
      split at accepted
      · exact absurd rfl accepted
      · rcases boundsEvidence_cases scalarType minValue maxValue with refuted | ⟨low, isLow, high, isHigh, -, -⟩
        · exact absurd refuted accepted
        · refine ⟨?_, ?_, rfl⟩
          · rintro text same
            obtain rfl := Option.some.inj same
            exact ⟨low, isLow⟩
          · rintro text same
            obtain rfl := Option.some.inj same
            exact ⟨high, isHigh⟩

omit exact in
theorem extremaOver_of_valid
    (valid : ∀ row ∈ rows, typedExtremaAreInvalid other scalarType row.valueCount row.nullCount row.minValue
      row.maxValue = false) (minValue maxValue : Option String) :
    extremaOver other scalarType minValue maxValue rows =
      ((rows.map FileColumnStatsRow.minValue).foldl (aheadOf other scalarType .lt) minValue,
        (rows.map FileColumnStatsRow.maxValue).foldl (aheadOf other scalarType .gt) maxValue) := by
  induction rows generalizing minValue maxValue with
  | nil => rfl
  | cons row rest ih =>
    rw [extremaOver, valid row List.mem_cons_self, if_neg Bool.false_ne_true,
      ih fun row member => valid row (List.mem_cons_of_mem _ member)]
    rfl

omit exact in
/-- One row that cannot be merged leaves no bounds, wherever it stands. -/
theorem extremaOver_of_invalid (member : row ∈ rows)
    (invalid : typedExtremaAreInvalid other scalarType row.valueCount row.nullCount row.minValue row.maxValue = true)
    (minValue maxValue : Option String) : extremaOver other scalarType minValue maxValue rows = (none, none) := by
  induction rows generalizing minValue maxValue with
  | nil => cases member
  | cons first rest ih =>
    rw [extremaOver]
    split
    · rfl
    · rename_i valid
      rcases List.mem_cons.mp member with rfl | later
      · exact absurd invalid valid
      · exact ih later _ _

theorem mergeStatExtrema_bounds
    (valid : ∀ row ∈ rows, typedExtremaAreInvalid other scalarType row.valueCount row.nullCount row.minValue
      row.maxValue = false) :
    MergedBounds other scalarType rows (mergeStatExtrema other scalarType rows) := by
  rw [mergeStatExtrema, extremaOver_of_valid other valid]
  have noStart : Readable scalarType none := fun text absent => nomatch absent
  have minimumRead : ∀ bound ∈ rows.map FileColumnStatsRow.minValue, Readable scalarType bound := by
    intro bound member
    obtain ⟨row, listed, rfl⟩ := List.mem_map.mp member
    exact (readable_of_valid exact other (valid row listed)).1
  have maximumRead : ∀ bound ∈ rows.map FileColumnStatsRow.maxValue, Readable scalarType bound := by
    intro bound member
    obtain ⟨row, listed, rfl⟩ := List.mem_map.mp member
    exact (readable_of_valid exact other (valid row listed)).2.1
  obtain ⟨minimumSome, minimumKept⟩ := foldl_aheadOf exact other (.inl rfl) noStart minimumRead
  obtain ⟨maximumSome, maximumKept⟩ := foldl_aheadOf exact other (.inr rfl) noStart maximumRead
  constructor
  · rw [minimumSome]
    simp
  · rw [maximumSome]
    have bothSome : ∀ row ∈ rows, (row.maxValue.isSome = true ↔ row.minValue.isSome = true) := by
      intro row listed
      rw [(readable_of_valid exact other (valid row listed)).2.2]
    simp only [Option.isSome_none, Bool.false_eq_true, false_or, List.mem_map, exists_exists_and_eq_and]
    exact exists_congr fun row => and_congr_right (bothSome row)
  · intro minValue found
    obtain ⟨source, notAhead⟩ := minimumKept minValue found
    constructor
    · rcases source with absent | member
      · cases absent
      · exact List.mem_map.mp member
    · intro row listed bound same
      exact (notAhead_lt_iff exact other).mp (notAhead bound (.inr (same ▸ List.mem_map_of_mem listed)))
  · intro maxValue found
    obtain ⟨source, notAhead⟩ := maximumKept maxValue found
    constructor
    · rcases source with absent | member
      · cases absent
      · exact List.mem_map.mp member
    · intro row listed bound same
      exact (notAhead_gt_iff exact other).mp (notAhead bound (.inr (same ▸ List.mem_map_of_mem listed)))

end

/-! ## Counting nulls -/

variable {columnTypes : ColumnId → CatalogScalarType} {sources : List DataFileRow}
  {allStats : List FileColumnStatsRow} {values : DataFileId → ColumnId → List (Option String)} {newFile : DataFileRow}

/-- What is counted of some items and allowed for the others is allowed for all. -/
theorem sum_split_le {α : Type} {items : List α} {counted allowed : α → Nat} (chosen : α → Bool)
    (le : ∀ item ∈ items, counted item ≤ allowed item) :
    ((items.filter chosen).map counted).sum + ((items.filter fun item => !chosen item).map allowed).sum ≤
      (items.map allowed).sum := by
  induction items with
  | nil => exact le_rfl
  | cons item rest ih =>
    have first := le item List.mem_cons_self
    have later := ih fun other member => le other (List.mem_cons_of_mem _ member)
    by_cases picked : chosen item = true
    · simp only [picked, List.filter_cons_of_pos, List.map_cons, List.sum_cons, Bool.not_true, Bool.false_eq_true,
        not_false_eq_true, List.filter_cons_of_neg]
      omega
    · simp only [picked, List.filter_cons_of_neg, List.map_cons, List.sum_cons, Bool.not_eq_true, Bool.not_false,
        List.filter_cons_of_pos]
      omega

theorem mem_statsOfColumn {columnId : ColumnId} {stat : FileColumnStatsRow} :
    stat ∈ statsOfColumn allStats sources columnId ↔
      stat ∈ allStats ∧ stat.dataFileId ∈ sources.map DataFileRow.dataFileId ∧ stat.columnId = columnId := by
  rw [statsOfColumn, List.mem_filter, Bool.and_eq_true, List.contains_iff_mem, decide_eq_true_eq]

namespace FaithfulSources

variable (faithful : FaithfulSources columnTypes sources allStats values) (columnId : ColumnId)

include faithful

theorem statsOfColumn_nodup : ((statsOfColumn allStats sources columnId).map FileColumnStatsRow.dataFileId).Nodup := by
  have once := faithful.once.sublist ((List.filter_sublist (p := fun stat =>
    (sources.map DataFileRow.dataFileId).contains stat.dataFileId && stat.columnId = columnId)
    (l := allStats)).map fun stat => (stat.dataFileId, stat.columnId))
  rw [← statsOfColumn] at once
  refine List.Nodup.of_map (fun dataFileId => (dataFileId, columnId)) ?_
  rw [List.map_map]
  convert once using 1
  apply List.map_congr_left
  intro stat member
  rw [Function.comp_apply, (mem_statsOfColumn.mp member).2.2]

/-- The files of the rows of a column are the sources that are not without one. -/
theorem files_perm :
    ((statsOfColumn allStats sources columnId).map FileColumnStatsRow.dataFileId).Perm
      ((sourcesWithStats sources (statsOfColumn allStats sources columnId)).map DataFileRow.dataFileId) := by
  apply (List.perm_ext_iff_of_nodup (faithful.statsOfColumn_nodup columnId)
    (faithful.distinct.sublist (List.filter_sublist.map _))).mpr
  intro dataFileId
  constructor
  · intro listed
    obtain ⟨stat, member, rfl⟩ := List.mem_map.mp listed
    obtain ⟨source, sourceListed, same⟩ := List.mem_map.mp (mem_statsOfColumn.mp member).2.1
    refine List.mem_map.mpr ⟨source, List.mem_filter.mpr ⟨sourceListed, ?_⟩, same⟩
    rw [List.contains_iff_mem, same]
    exact listed
  · intro listed
    obtain ⟨source, member, rfl⟩ := List.mem_map.mp listed
    exact List.contains_iff_mem.mp (List.mem_filter.mp member).2

theorem nullCount_eq : ((statsOfColumn allStats sources columnId).map FileColumnStatsRow.nullCount).sum =
    ((statsOfColumn allStats sources columnId).map fun stat => nullsOf values columnId stat.dataFileId).sum := by
  congr 1
  apply List.map_congr_left
  intro stat member
  obtain ⟨listed, ofSource, rfl⟩ := mem_statsOfColumn.mp member
  exact (faithful.faithful stat listed ofSource).nullCount

theorem nulls_le :
    ((statsOfColumn allStats sources columnId).map FileColumnStatsRow.nullCount).sum +
      ((sourcesWithoutStats sources (statsOfColumn allStats sources columnId)).map DataFileRow.recordCount).sum ≤
        (sources.map DataFileRow.recordCount).sum := by
  have listed : ((statsOfColumn allStats sources columnId).map FileColumnStatsRow.nullCount).sum =
      ((sourcesWithStats sources (statsOfColumn allStats sources columnId)).map fun source =>
        nullsOf values columnId source.dataFileId).sum := by
    have reordered := ((faithful.files_perm columnId).map (nullsOf values columnId)).sum_eq
    rw [List.map_map, List.map_map] at reordered
    rw [faithful.nullCount_eq columnId]
    exact reordered
  rw [listed, sourcesWithoutStats, sourcesWithStats]
  have each : ∀ source ∈ sources, nullsOf values columnId source.dataFileId ≤ source.recordCount := by
    intro source member
    rw [← faithful.counted source member columnId]
    exact List.countP_le_length
  exact sum_split_le _ each

theorem nulls_between (merged : FileColumnStatsRow)
    (derived : merged = mergedColumnStats other allStats sources newFile columnTypes columnId)
    (complete : newFile.recordCount = (sources.map DataFileRow.recordCount).sum) :
    ((statsOfColumn allStats sources columnId).map fun stat => nullsOf values columnId stat.dataFileId).sum ≤
        merged.nullCount ∧ merged.nullCount ≤ newFile.recordCount := by
  subst derived
  rw [← faithful.nullCount_eq columnId, complete]
  exact ⟨Nat.le_add_right _ _, faithful.nulls_le columnId⟩

end FaithfulSources

/-! ## Sound statistics -/

theorem mem_statsColumns {columnId : ColumnId} :
    columnId ∈ statsColumns allStats sources ↔ ∃ stat, stat ∈ statsOfColumn allStats sources columnId := by
  simp only [statsColumns, List.mem_insertionSort, List.mem_dedup, List.mem_map, List.mem_filter,
    List.contains_iff_mem, mem_statsOfColumn, and_assoc]

theorem fileEvidence_eq_bounds {scalarType : CatalogScalarType} {low high : ScalarValue}
    (evidence : fileEvidence scalarType row = .bounds low high) :
    ∃ minValue maxValue, row.minValue = some minValue ∧ row.maxValue = some maxValue ∧
      scalarValue scalarType minValue = some low ∧ scalarValue scalarType maxValue = some high := by
  simp only [fileEvidence] at evidence
  cases lowest : row.minValue with
  | none =>
    rw [lowest] at evidence
    cases highest : row.maxValue with
    | none =>
      rw [highest] at evidence
      dsimp only at evidence
      split at evidence <;> cases evidence
    | some maxValue =>
      rw [highest] at evidence
      cases evidence
  | some minValue =>
    rw [lowest] at evidence
    cases highest : row.maxValue with
    | none =>
      rw [highest] at evidence
      cases evidence
    | some maxValue =>
      rw [highest] at evidence
      dsimp only at evidence
      split at evidence
      · cases evidence
      · obtain ⟨isLow, isHigh⟩ := boundsEvidence_eq_bounds evidence
        exact ⟨minValue, maxValue, rfl, rfl, isLow, isHigh⟩

section

variable {columnId : ColumnId} (exact : (columnTypes columnId).isExact = true) (other : OtherScalarOrder)
  {merged : Option String × Option String}
  (merges : MergedBounds other (columnTypes columnId) (statsOfColumn allStats sources columnId) merged)
  {minValue maxValue : String} (lowest : merged.1 = some minValue) (highest : merged.2 = some maxValue)

include exact merges lowest highest

/-- Each faithful row is within the merged bounds, and so are the values it is about. -/
theorem bounds_listed (faithful : FaithfulSources columnTypes sources allStats values)
    (valid : ∀ stat ∈ statsOfColumn allStats sources columnId, typedExtremaAreInvalid other (columnTypes columnId)
      stat.valueCount stat.nullCount stat.minValue stat.maxValue = false) {source : DataFileRow}
    (member : source ∈ sourcesWithStats sources (statsOfColumn allStats sources columnId))
    (held : some value ∈ values source.dataFileId columnId) :
    TextLe other (columnTypes columnId) minValue value ∧ TextLe other (columnTypes columnId) value maxValue := by
  obtain ⟨stat, statListed, same⟩ := List.mem_map.mp (List.contains_iff_mem.mp (List.mem_filter.mp member).2)
  obtain ⟨inAll, ofSource, ofColumn⟩ := mem_statsOfColumn.mp statListed
  have truthful := faithful.faithful stat inAll ofSource
  rw [ofColumn, same] at truthful
  have accepted : fileEvidence (columnTypes columnId) stat ≠ .refute := by
    intro refuted
    rw [← typedExtremaAreInvalid_iff exact other stat, valid stat statListed] at refuted
    cases refuted
  obtain ⟨scalar, read, low, high, evidence, above, below⟩ := truthful.within accepted held
  obtain ⟨bound, bound', lowSame, highSame, readLow, readHigh⟩ := fileEvidence_eq_bounds evidence
  have lower := (textLe_iff exact other _ _).mpr ⟨low, scalar, readLow, read, above⟩
  have upper := (textLe_iff exact other _ _).mpr ⟨scalar, high, read, readHigh, below⟩
  exact ⟨((merges.least minValue lowest).2 stat statListed bound lowSame).trans exact lower,
    upper.trans exact ((merges.greatest maxValue highest).2 stat statListed bound' highSame)⟩

/-- A value is within the merged bounds exactly if it is above some row's and below some row's. -/
theorem bounds_unlisted_iff :
    (TextLe other (columnTypes columnId) minValue value ∧ TextLe other (columnTypes columnId) value maxValue) ↔
      (∃ stat ∈ statsOfColumn allStats sources columnId, ∃ bound, stat.minValue = some bound ∧
        TextLe other (columnTypes columnId) bound value) ∧
      ∃ stat ∈ statsOfColumn allStats sources columnId, ∃ bound, stat.maxValue = some bound ∧
        TextLe other (columnTypes columnId) value bound := by
  obtain ⟨⟨leastRow, leastListed, leastSame⟩, least⟩ := merges.least minValue lowest
  obtain ⟨⟨greatestRow, greatestListed, greatestSame⟩, greatest⟩ := merges.greatest maxValue highest
  constructor
  · rintro ⟨above, below⟩
    exact ⟨⟨leastRow, leastListed, minValue, leastSame, above⟩, greatestRow, greatestListed, maxValue, greatestSame,
      below⟩
  · rintro ⟨⟨low, lowListed, bound, lowSame, above⟩, high, highListed, bound', highSame, below⟩
    exact ⟨(least low lowListed bound lowSame).trans exact above,
      below.trans exact (greatest high highListed bound' highSame)⟩

end

theorem mergeStatExtrema_isSome {scalarType : CatalogScalarType} (exact : scalarType.isExact = true)
    (other : OtherScalarOrder) (rows : List FileColumnStatsRow) :
    let present := (∀ row ∈ rows, typedExtremaAreInvalid other scalarType row.valueCount row.nullCount row.minValue
      row.maxValue = false) ∧ ∃ row ∈ rows, row.minValue.isSome = true
    ((mergeStatExtrema other scalarType rows).1.isSome = true ↔ present) ∧
      ((mergeStatExtrema other scalarType rows).2.isSome = true ↔ present) := by
  intro present
  by_cases valid : ∀ row ∈ rows, typedExtremaAreInvalid other scalarType row.valueCount row.nullCount row.minValue
      row.maxValue = false
  · have merges := mergeStatExtrema_bounds exact other valid
    exact ⟨merges.minimum.trans (and_iff_right valid).symm, merges.maximum.trans (and_iff_right valid).symm⟩
  · have absent : ¬present := fun holds => valid holds.1
    push Not at valid
    obtain ⟨row, member, invalid⟩ := valid
    have nothing : mergeStatExtrema other scalarType rows = (none, none) :=
      extremaOver_of_invalid other member (by simpa using invalid) none none
    rw [nothing]
    exact ⟨iff_of_false Bool.false_ne_true absent, iff_of_false Bool.false_ne_true absent⟩

/-- The order in which the sources and their rows are listed does not matter for what is present. -/
theorem mergeStatsForReplacement_presence (other : OtherScalarOrder)
    (exact : ∀ columnId ∈ statsColumns allStats sources, (columnTypes columnId).isExact = true)
    {reordered : List DataFileRow} {reorderedStats : List FileColumnStatsRow} (sameSources : sources.Perm reordered)
    (sameStats : allStats.Perm reorderedStats) :
    SamePresence (mergeStatsForReplacement other allStats sources newFile columnTypes)
      (mergeStatsForReplacement other reorderedStats reordered newFile columnTypes) := by
  intro merged member
  obtain ⟨columnId, listed, rfl⟩ := List.mem_map.mp member
  have rows : ∀ stat, stat ∈ statsOfColumn allStats sources columnId ↔
      stat ∈ statsOfColumn reorderedStats reordered columnId := by
    intro stat
    rw [mem_statsOfColumn, mem_statsOfColumn, sameStats.mem_iff, (sameSources.map _).mem_iff]
  have listed' : columnId ∈ statsColumns reorderedStats reordered := by
    rw [mem_statsColumns] at listed ⊢
    simpa only [rows] using listed
  refine ⟨_, List.mem_map_of_mem listed', rfl, ?_, ?_⟩
  · have before := (mergeStatExtrema_isSome (exact columnId listed) other (statsOfColumn allStats sources columnId)).1
    have after :=
      (mergeStatExtrema_isSome (exact columnId listed) other (statsOfColumn reorderedStats reordered columnId)).1
    simp only [rows] at before
    exact Bool.eq_iff_iff.mpr (after.trans before.symm)
  · have before := (mergeStatExtrema_isSome (exact columnId listed) other (statsOfColumn allStats sources columnId)).2
    have after :=
      (mergeStatExtrema_isSome (exact columnId listed) other (statsOfColumn reorderedStats reordered columnId)).2
    simp only [rows] at before
    exact Bool.eq_iff_iff.mpr (after.trans before.symm)

theorem mem_sourcesWithStats_or {sourceStats : List FileColumnStatsRow} {source : DataFileRow}
    (member : source ∈ sources) :
    source ∈ sourcesWithStats sources sourceStats ∨ source ∈ sourcesWithoutStats sources sourceStats := by
  rw [sourcesWithStats, sourcesWithoutStats, List.mem_filter, List.mem_filter, Bool.not_eq_true']
  cases (sourceStats.map FileColumnStatsRow.dataFileId).contains source.dataFileId with
  | false => exact .inr ⟨member, rfl⟩
  | true => exact .inl ⟨member, rfl⟩

/-- Statistics derived from faithful rows are sound for the sources that have rows, in any order. They are
sound for all sources if and only if those without a row have no values beyond the bounds of the others. -/
theorem mergeStatsForReplacement_sound (other : OtherScalarOrder)
    (exact : ∀ columnId ∈ statsColumns allStats sources, (columnTypes columnId).isExact = true)
    (faithful : FaithfulSources columnTypes sources allStats values)
    (complete : newFile.recordCount = (sources.map DataFileRow.recordCount).sum) :
    (∀ merged ∈ mergeStatsForReplacement other allStats sources newFile columnTypes,
      MergedSound other columnTypes sources allStats values newFile merged) ∧
    (∀ {reordered : List DataFileRow} {reorderedStats : List FileColumnStatsRow}, sources.Perm reordered →
      allStats.Perm reorderedStats →
      SamePresence (mergeStatsForReplacement other allStats sources newFile columnTypes)
        (mergeStatsForReplacement other reorderedStats reordered newFile columnTypes)) ∧
    ((∀ merged ∈ mergeStatsForReplacement other allStats sources newFile columnTypes,
        BoundValues other columnTypes sources values merged) ↔
      UnlistedWithin other columnTypes sources allStats values) := by
  have sound : ∀ merged ∈ mergeStatsForReplacement other allStats sources newFile columnTypes,
      MergedSound other columnTypes sources allStats values newFile merged := by
    intro merged member
    obtain ⟨columnId, listed, rfl⟩ := List.mem_map.mp member
    obtain ⟨nullsKnown, nullsFit⟩ := faithful.nulls_between columnId _ rfl complete
    refine ⟨?_, nullsKnown, nullsFit⟩
    intro minValue maxValue lowest highest source sourceListed value held
    obtain ⟨valid, -⟩ := (mergeStatExtrema_isSome (exact columnId listed) other _).1.mp
      (Option.isSome_iff_exists.mpr ⟨minValue, lowest⟩)
    have merges := mergeStatExtrema_bounds (exact columnId listed) other valid
    exact bounds_listed (exact columnId listed) other merges lowest highest faithful valid sourceListed held
  refine ⟨sound, fun sameSources sameStats => mergeStatsForReplacement_presence other exact sameSources sameStats, ?_⟩
  constructor
  · intro holds columnId valid ⟨stat, member, bounded⟩ source sourceListed value held
    have listed : columnId ∈ statsColumns allStats sources := mem_statsColumns.mpr ⟨stat, member⟩
    have merges := mergeStatExtrema_bounds (exact columnId listed) other valid
    obtain ⟨minValue, lowest⟩ := Option.isSome_iff_exists.mp (merges.minimum.mpr ⟨stat, member, bounded⟩)
    obtain ⟨maxValue, highest⟩ := Option.isSome_iff_exists.mp (merges.maximum.mpr ⟨stat, member, bounded⟩)
    have within := holds _ (List.mem_map_of_mem listed) minValue maxValue lowest highest source
      (List.mem_filter.mp sourceListed).1 value held
    exact (bounds_unlisted_iff (exact columnId listed) other merges lowest highest).mp within
  · intro unlisted merged member minValue maxValue lowest highest source sourceListed value held
    rcases mem_sourcesWithStats_or sourceListed with withStats | withoutStats
    · exact (sound merged member).bounds minValue maxValue lowest highest source withStats value held
    · obtain ⟨columnId, listed, rfl⟩ := List.mem_map.mp member
      obtain ⟨valid, bounded⟩ := (mergeStatExtrema_isSome (exact columnId listed) other _).1.mp
        (Option.isSome_iff_exists.mpr ⟨minValue, lowest⟩)
      have merges := mergeStatExtrema_bounds (exact columnId listed) other valid
      exact (bounds_unlisted_iff (exact columnId listed) other merges lowest highest).mpr
        (unlisted columnId valid bounded source withoutStats value held)

def fiveStats : FileColumnStatsRow :=
  { dataFileId := 1, tableId := 1, columnId := 1, valueCount := some 1, minValue := some "5", maxValue := some "5" }

/-- One file holds five and has statistics, the other holds nine and has none. -/
def fiveAndNine (dataFileId : DataFileId) (_ : ColumnId) : List (Option String) :=
  if dataFileId = 1 then [some "5"] else [some "9"]

theorem fiveStats_faithful :
    FaithfulSources (fun _ => .signedInteger 32) [mergedSource 1 0 1, mergedSource 2 1 1] [fiveStats] fiveAndNine where
  distinct := by decide
  once := by decide
  faithful stat member _ := by
    obtain rfl := List.mem_singleton.mp member
    refine ⟨rfl, fun valueCount same => (Option.some.inj same).symm, ⟨?_, ?_⟩⟩
    · intro bound low same read value held
      obtain rfl : value = "5" := by simpa [fiveAndNine, fiveStats] using held
      obtain rfl := Option.some.inj same
      exact ⟨low, read, le_rfl⟩
    · intro bound high same read value held
      obtain rfl : value = "5" := by simpa [fiveAndNine, fiveStats] using held
      obtain rfl := Option.some.inj same
      exact ⟨high, read, le_rfl⟩
  counted source member columnId := by
    rcases List.mem_cons.mp member with rfl | second
    · rfl
    · obtain rfl := List.mem_singleton.mp second
      rfl

/-- The file without statistics counts as null: the bounds of the replacement are those of the other file. -/
theorem mergeStatsForReplacement_unlisted_nine :
    ∃ merged : FileColumnStatsRow,
      mergeStatsForReplacement (fun _ _ _ => none) [fiveStats] [mergedSource 1 0 1, mergedSource 2 1 1]
        (mergedSource 3 0 2) (fun _ => .signedInteger 32) = [merged] ∧
      merged.minValue = some "5" ∧ merged.maxValue = some "5" ∧ merged.nullCount = 1 ∧
      FaithfulSources (fun _ => .signedInteger 32) [mergedSource 1 0 1, mergedSource 2 1 1] [fiveStats] fiveAndNine ∧
      ¬BoundValues (fun _ _ _ => none) (fun _ => .signedInteger 32) [mergedSource 1 0 1, mergedSource 2 1 1]
        fiveAndNine merged := by
  refine ⟨{ fiveStats with dataFileId := 3, valueCount := some 2, nullCount := 1 }, by decide +kernel, rfl, rfl, rfl,
    fiveStats_faithful, ?_⟩
  intro bounds
  obtain ⟨ordering, compared, notAbove⟩ :=
    (bounds "5" "5" rfl rfl (mergedSource 2 1 1) (by decide) "9" (by decide)).2
  have above : compareTypedScalars (fun _ _ _ => none) (.signedInteger 32) "9" "5" = some .gt := by decide +kernel
  exact notAbove (Option.some.inj (compared.symm.trans above))

theorem mergeStatsForReplacement_sound_five :
    List.Forall
      (MergedSound (fun _ _ _ => none) (fun _ => .signedInteger 32) [mergedSource 1 0 1, mergedSource 2 1 1] [fiveStats]
        fiveAndNine (mergedSource 3 0 2))
      (mergeStatsForReplacement (fun _ _ _ => none) [fiveStats] [mergedSource 1 0 1, mergedSource 2 1 1]
        (mergedSource 3 0 2) (fun _ => .signedInteger 32)) :=
  List.forall_iff_forall_mem.mpr
    (mergeStatsForReplacement_sound (fun _ _ _ => none) (fun _ _ => rfl) fiveStats_faithful rfl).1

end DucklakeCatalog.Fdb
