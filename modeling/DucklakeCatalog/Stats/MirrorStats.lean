import DucklakeCatalog.KeyedStore.Grouped
import DucklakeCatalog.Stats.GlobalBounds

/-! Column statistics of the metadata mirror, recomputed from the statistics of the current data files. -/
namespace DucklakeCatalog

open KeyedStore ScalarOrder

structure TableColumnStatsMirrorRow where
  tableId : TableId
  columnId : ColumnId
  containsNull : Bool
  minValue : Option String
  maxValue : Option String
  deriving DecidableEq, Repr

structure MirrorColumnStats where
  scalarType : CatalogScalarType
  containsNull : Bool := false
  minValue : Option String := none
  maxValue : Option String := none
  invalidExtrema : Bool := false

section

variable (other : OtherScalarOrder)

namespace MirrorColumnStats

def merge (stats : MirrorColumnStats) (row : FileColumnStatsRow) : MirrorColumnStats :=
  let stats := { stats with containsNull := stats.containsNull || decide (0 < row.nullCount) }
  if stats.invalidExtrema then stats
  else if typedExtremaAreInvalid other stats.scalarType row.valueCount row.nullCount row.minValue row.maxValue then
    { stats with minValue := none, maxValue := none, invalidExtrema := true }
  else
    { stats with
      minValue := row.minValue.elim stats.minValue (lowerText other stats.scalarType stats.minValue)
      maxValue := row.maxValue.elim stats.maxValue (raiseText other stats.scalarType stats.maxValue) }

def mirrorRow (stats : MirrorColumnStats) (key : TableId ×ₗ ColumnId) : TableColumnStatsMirrorRow where
  tableId := key.1
  columnId := key.2
  containsNull := stats.containsNull
  minValue := if stats.invalidExtrema then none else stats.minValue
  maxValue := if stats.invalidExtrema then none else stats.maxValue

end MirrorColumnStats

def FileColumnStatsRow.columnKey (row : FileColumnStatsRow) : TableId ×ₗ ColumnId := toLex (row.tableId, row.columnId)

def mirrorColumnTypes (tables : List TableRow) : OrderedMap (TableId ×ₗ ColumnId) CatalogScalarType :=
  (tables.flatMap fun table => table.columns.map fun column =>
    (toLex (table.tableId, column.columnId), normalizeCatalogScalarType column.columnType)).foldl
      (fun columnTypes column => columnTypes.insert column.1 column.2) OrderedMap.empty

def mirrorColumnType (tables : List TableRow) (key : TableId ×ₗ ColumnId) : CatalogScalarType :=
  ((mirrorColumnTypes tables).get? key).getD .unsupported

/-- The statistics of the current files. -/
def currentFileStats (currentDataFiles : List DataFileRow) (fileStats : List FileColumnStatsRow) :
    List FileColumnStatsRow :=
  fileStats.filter fun row => decide (row.dataFileId ∈ currentDataFiles.map DataFileRow.dataFileId)

def recomputeTableColumnStats (tables : List TableRow) (currentDataFiles : List DataFileRow)
    (fileStats : List FileColumnStatsRow) : List TableColumnStatsMirrorRow :=
  let accumulators := OrderedMap.empty.gather FileColumnStatsRow.columnKey
    (fun key => { scalarType := mirrorColumnType tables key }) (MirrorColumnStats.merge other)
    (currentFileStats currentDataFiles fileStats)
  accumulators.entries.map fun entry => entry.2.mirrorRow entry.1

end

/-! ## The mirror accumulates as the global statistics do -/

namespace MirrorColumnStats

/-- The statistics of one column in the shape that the global statistics keep them. -/
def asGlobal (stats : MirrorColumnStats) : GlobalColumnStats :=
  optionalStats stats.scalarType stats.containsNull stats.minValue stats.maxValue stats.invalidExtrema

/-- Bounds that were found invalid are gone. -/
def Cleared (stats : MirrorColumnStats) : Prop :=
  stats.invalidExtrema = true → stats.minValue = none ∧ stats.maxValue = none

variable (other : OtherScalarOrder) {stats : MirrorColumnStats}

theorem merge_asGlobal (cleared : stats.Cleared) (row : FileColumnStatsRow) :
    (stats.merge other row).asGlobal = (stats.asGlobal.noteFileNulls row).mergeFileExtrema other row := by
  have noted : ({ stats with containsNull := stats.containsNull || decide (0 < row.nullCount) } :
      MirrorColumnStats).asGlobal = stats.asGlobal.noteFileNulls row := rfl
  rw [merge, GlobalColumnStats.mergeFileExtrema]
  by_cases invalid : stats.invalidExtrema = true
  · obtain ⟨noMin, noMax⟩ := cleared invalid
    have sticky : (stats.asGlobal.noteFileNulls row).invalidateExtrema = stats.asGlobal.noteFileNulls row := by
      simp only [GlobalColumnStats.invalidateExtrema, GlobalColumnStats.clearExtrema, GlobalColumnStats.noteFileNulls,
        asGlobal, optionalStats, noMin, noMax, invalid, Option.isSome_none, Option.getD_none]
    have alreadyInvalid : (stats.asGlobal.noteFileNulls row).invalidExtrema = true := invalid
    rw [if_pos invalid, noted, sticky, if_pos alreadyInvalid, ite_self]
  · have stillValid : ¬(stats.asGlobal.noteFileNulls row).invalidExtrema = true := invalid
    rw [if_neg invalid, if_neg stillValid]
    change (if typedExtremaAreInvalid other stats.scalarType row.valueCount row.nullCount row.minValue row.maxValue then
      _ else _ : MirrorColumnStats).asGlobal = if typedExtremaAreInvalid other stats.scalarType row.valueCount
        row.nullCount row.minValue row.maxValue then _ else _
    split_ifs
    · rfl
    · rw [← noted]
      cases row.minValue with
      | none =>
        cases row.maxValue with
        | none => rfl
        | some maxValue => exact optionalStats_raiseText other stats.scalarType maxValue
      | some minValue =>
        cases row.maxValue with
        | none => exact optionalStats_lowerText other stats.scalarType minValue
        | some maxValue =>
          refine (optionalStats_raiseText other stats.scalarType maxValue).trans ?_
          exact congrArg (GlobalColumnStats.raiseMax other · maxValue)
            (optionalStats_lowerText other stats.scalarType minValue)

theorem merge_keeps (stats : MirrorColumnStats) (row : FileColumnStatsRow) :
    (stats.merge other row).scalarType = stats.scalarType ∧
      (stats.merge other row).containsNull = (stats.containsNull || decide (0 < row.nullCount)) := by
  simp only [merge]
  split_ifs <;> exact ⟨rfl, rfl⟩

theorem merge_tracks (exact : stats.scalarType.isExact = true) {extrema : Extrema ScalarValue}
    (tracks : stats.asGlobal.Tracks extrema) (row : FileColumnStatsRow) :
    (stats.merge other row).asGlobal.Tracks (extrema.step (fileEvidence stats.scalarType row)) := by
  have cleared : stats.Cleared := by
    intro invalid
    obtain ⟨unknowable, lowest, highest⟩ := optionalStats_bounds tracks
    rw [unknowable.mp invalid] at lowest highest
    exact ⟨Option.map_eq_none_iff.mp lowest, Option.map_eq_none_iff.mp highest⟩
  have noted : (stats.asGlobal.noteFileNulls row).Tracks extrema :=
    tracks.of_same rfl rfl ⟨rfl, rfl⟩ ⟨rfl, rfl⟩
  rw [merge_asGlobal other cleared row]
  exact @GlobalColumnStats.mergeFileExtrema_tracks (stats.asGlobal.noteFileNulls row) extrema exact other noted row

/-- Without a known type there are no bounds. -/
theorem merge_unsupported (unsupported : stats.scalarType = .unsupported)
    (unbounded : stats.minValue = none ∧ stats.maxValue = none) (row : FileColumnStatsRow) :
    (stats.merge other row).minValue = none ∧ (stats.merge other row).maxValue = none := by
  simp only [merge, unsupported]
  split_ifs with invalid refuted
  · exact unbounded
  · exact ⟨rfl, rfl⟩
  · cases lowest : row.minValue with
    | none =>
      cases highest : row.maxValue with
      | none => exact unbounded
      | some maxValue => simp [typedExtremaAreInvalid, lowest, highest] at refuted
    | some minValue =>
      cases highest : row.maxValue with
      | none => simp [typedExtremaAreInvalid, lowest, highest] at refuted
      | some maxValue => simp [typedExtremaAreInvalid, lowest, highest, compareTypedScalars] at refuted

/-- What a run of rows leaves. -/
theorem foldl_merge_keeps (rows : List FileColumnStatsRow) (stats : MirrorColumnStats) :
    (rows.foldl (merge other) stats).scalarType = stats.scalarType ∧
      (rows.foldl (merge other) stats).containsNull =
        (stats.containsNull || rows.any fun row => decide (0 < row.nullCount)) := by
  induction rows generalizing stats with
  | nil => exact ⟨rfl, (Bool.or_false _).symm⟩
  | cons row rest ih =>
    obtain ⟨sameType, sameNulls⟩ := ih (stats.merge other row)
    obtain ⟨mergedType, mergedNulls⟩ := merge_keeps other stats row
    refine ⟨sameType.trans mergedType, ?_⟩
    rw [List.foldl_cons, sameNulls, mergedNulls, List.any_cons, Bool.or_assoc]

theorem foldl_merge_tracks (rows : List FileColumnStatsRow) {stats : MirrorColumnStats}
    (exact : stats.scalarType.isExact = true) {extrema : Extrema ScalarValue} (tracks : stats.asGlobal.Tracks extrema) :
    (rows.foldl (merge other) stats).asGlobal.Tracks (extrema.run (rows.map (fileEvidence stats.scalarType))) := by
  induction rows generalizing stats extrema with
  | nil => exact tracks
  | cons row rest ih =>
    have sameType := (merge_keeps other stats row).1
    have merged := merge_tracks other exact tracks row
    have later := ih (sameType.symm ▸ exact) merged
    rw [sameType] at later
    exact later

theorem foldl_merge_unsupported (rows : List FileColumnStatsRow) {stats : MirrorColumnStats}
    (unsupported : stats.scalarType = .unsupported) (unbounded : stats.minValue = none ∧ stats.maxValue = none) :
    (rows.foldl (merge other) stats).minValue = none ∧ (rows.foldl (merge other) stats).maxValue = none := by
  induction rows generalizing stats with
  | nil => exact unbounded
  | cons row rest ih =>
    exact ih ((merge_keeps other stats row).1.trans unsupported) (merge_unsupported other unsupported unbounded row)

/-- The bounds that a row shows are those that were tracked. -/
theorem mirrorRow_bounds {extrema : Extrema ScalarValue} (tracks : stats.asGlobal.Tracks extrema)
    (key : TableId ×ₗ ColumnId) :
    (stats.mirrorRow key).minValue.map (scalarValue stats.scalarType) = extrema.range.map (some ·.1) ∧
      (stats.mirrorRow key).maxValue.map (scalarValue stats.scalarType) = extrema.range.map (some ·.2) := by
  obtain ⟨unknowable, lowest, highest⟩ := optionalStats_bounds tracks
  rw [mirrorRow]
  by_cases invalid : stats.invalidExtrema = true
  · rw [unknowable.mp invalid]
    simp only [invalid, if_true]
    exact ⟨rfl, rfl⟩
  · simp only [invalid]
    exact ⟨lowest, highest⟩

end MirrorColumnStats

/-! ## Soundness -/

/-- The values that each column of each table holds in a data file. -/
abbrev ColumnValues := TableId ×ₗ ColumnId → DataFileId → List (Option String)

structure MirrorStatsInput where
  tables : List TableRow
  currentDataFiles : List DataFileRow
  fileStats : List FileColumnStatsRow

namespace MirrorStatsInput

/-- Tables with integer, decimal or text columns. -/
def Exact (input : MirrorStatsInput) : Prop :=
  ∀ table ∈ input.tables, ∀ column ∈ table.columns, (normalizeCatalogScalarType column.columnType).isExact = true

def scalarType (input : MirrorStatsInput) (key : TableId ×ₗ ColumnId) : CatalogScalarType :=
  mirrorColumnType input.tables key

/-- The statistics of a column in the current files. -/
def columnRows (input : MirrorStatsInput) (fileStats : List FileColumnStatsRow) (key : TableId ×ₗ ColumnId) :
    List FileColumnStatsRow :=
  (currentFileStats input.currentDataFiles fileStats).filter fun row => decide (row.columnKey = key)

/-- The statistics tell the truth of the current files, whose values can be read. -/
structure Faithful (input : MirrorStatsInput) (values : ColumnValues) : Prop where
  rows : ∀ row ∈ currentFileStats input.currentDataFiles input.fileStats,
    row.Faithful (input.scalarType row.columnKey) (values row.columnKey row.dataFileId)
  denote : ∀ key, (input.scalarType key).isExact = true → ∀ file ∈ input.currentDataFiles, file.tableId = key.1 →
    ∀ value, some value ∈ values key file.dataFileId → (scalarValue (input.scalarType key) value).isSome

def Holds (input : MirrorStatsInput) (values : ColumnValues) (key : TableId ×ₗ ColumnId) (value : Option String) :
    Prop :=
  ∃ file ∈ input.currentDataFiles, file.tableId = key.1 ∧ value ∈ values key file.dataFileId

structure RowSound (input : MirrorStatsInput) (values : ColumnValues) (row : TableColumnStatsMirrorRow) : Prop where
  minimum : ∀ bound, row.minValue = some bound → ∀ value,
    input.Holds values (toLex (row.tableId, row.columnId)) (some value) →
      ScalarLe (input.scalarType (toLex (row.tableId, row.columnId))) bound value
  maximum : ∀ bound, row.maxValue = some bound → ∀ value,
    input.Holds values (toLex (row.tableId, row.columnId)) (some value) →
      ScalarLe (input.scalarType (toLex (row.tableId, row.columnId))) value bound
  nulls : row.containsNull = false → ¬input.Holds values (toLex (row.tableId, row.columnId)) none

/-- The rows are of one column, and their nulls, bounds and the values these denote agree. -/
structure SameRow (scalarType : CatalogScalarType) (left right : TableColumnStatsMirrorRow) : Prop where
  tableId : right.tableId = left.tableId
  columnId : right.columnId = left.columnId
  containsNull : right.containsNull = left.containsNull
  minimum : right.minValue.map (scalarValue scalarType) = left.minValue.map (scalarValue scalarType)
  maximum : right.maxValue.map (scalarValue scalarType) = left.maxValue.map (scalarValue scalarType)

section

variable (input : MirrorStatsInput) (other : OtherScalarOrder)

def recomputed (fileStats : List FileColumnStatsRow) : List TableColumnStatsMirrorRow :=
  recomputeTableColumnStats other input.tables input.currentDataFiles fileStats

/-- The recomputed rows are true of all values that the statistics are true of, whatever the order of these. -/
structure Sound : Prop where
  rows : ∀ values, input.Faithful values → ∀ row ∈ input.recomputed other input.fileStats, input.RowSound values row
  stable : ∀ fileStats, input.fileStats.Perm fileStats → ∀ row ∈ input.recomputed other input.fileStats,
    ∃ same ∈ input.recomputed other fileStats,
      SameRow (input.scalarType (toLex (row.tableId, row.columnId))) row same

/-- Every current file of the table has statistics of the column. -/
def Covered (key : TableId ×ₗ ColumnId) : Prop :=
  ∀ file ∈ input.currentDataFiles, file.tableId = key.1 →
    ∃ row ∈ input.columnRows input.fileStats key, row.dataFileId = file.dataFileId

/-- What the statistics say of the column leaves room for any value: there are nulls, and the bounds are invalid,
missing, or reach all values of the type. -/
structure Unassuming (key : TableId ×ₗ ColumnId) : Prop where
  nulls : ∃ row ∈ input.columnRows input.fileStats key, 0 < row.nullCount
  bounds : (∃ row ∈ input.columnRows input.fileStats key,
      typedExtremaAreInvalid other (input.scalarType key) row.valueCount row.nullCount row.minValue row.maxValue =
        true) ∨
    (∀ row ∈ input.columnRows input.fileStats key, row.minValue = none ∧ row.maxValue = none) ∨
    ∀ text, ∀ value ∈ scalarValue (input.scalarType key) text,
      (∃ row ∈ input.columnRows input.fileStats key, ∃ bound ∈ row.minValue,
        ∃ low ∈ scalarValue (input.scalarType key) bound, low ≤ value) ∧
      ∃ row ∈ input.columnRows input.fileStats key, ∃ bound ∈ row.maxValue,
        ∃ high ∈ scalarValue (input.scalarType key) bound, value ≤ high

end

/-! ## The rows that are recomputed -/

section

variable {input : MirrorStatsInput} {fileStats : List FileColumnStatsRow} {key : TableId ×ₗ ColumnId}
  {row : TableColumnStatsMirrorRow}

theorem exact_or_unsupported (exact : input.Exact) (key : TableId ×ₗ ColumnId) :
    (input.scalarType key).isExact = true ∨ input.scalarType key = .unsupported := by
  rw [scalarType, mirrorColumnType, mirrorColumnTypes]
  rcases OrderedMap.get?_foldl_insert_cases OrderedMap.empty
      (input.tables.flatMap fun table => table.columns.map fun column =>
        (toLex (table.tableId, column.columnId), normalizeCatalogScalarType column.columnType))
      Prod.fst Prod.snd key with ⟨item, listed, _, found⟩ | ⟨_, missing⟩
  · rw [found]
    obtain ⟨table, inTables, listed⟩ := List.mem_flatMap.mp listed
    obtain ⟨column, inColumns, rfl⟩ := List.mem_map.mp listed
    exact Or.inl (exact table inTables column inColumns)
  · rw [missing]
    exact Or.inr rfl

/-- The bounds that the statistics of a column come to. -/
def range (input : MirrorStatsInput) (fileStats : List FileColumnStatsRow) (key : TableId ×ₗ ColumnId) :
    Option (ScalarValue × ScalarValue) :=
  ((Extrema.known none).run ((input.columnRows fileStats key).map (fileEvidence (input.scalarType key)))).range

/-- The row of a column is what its statistics come to. -/
structure Shows (input : MirrorStatsInput) (fileStats : List FileColumnStatsRow) (key : TableId ×ₗ ColumnId)
    (row : TableColumnStatsMirrorRow) : Prop where
  tableId : row.tableId = key.1
  columnId : row.columnId = key.2
  containsNull : row.containsNull = (input.columnRows fileStats key).any fun row => decide (0 < row.nullCount)
  minimum : row.minValue.map (scalarValue (input.scalarType key)) = (input.range fileStats key).map (some ·.1)
  maximum : row.maxValue.map (scalarValue (input.scalarType key)) = (input.range fileStats key).map (some ·.2)

theorem remembered (scalarType : CatalogScalarType) (rows : List FileColumnStatsRow) :
    .forget ∉ rows.map (fileEvidence scalarType) := by
  intro forgets
  obtain ⟨row, _, same⟩ := List.mem_map.mp forgets
  exact fileEvidence_remembers scalarType row same

/-- Known bounds come from some row, and none of the rows refutes them. -/
theorem range_evidence {range : ScalarValue × ScalarValue} (known : input.range fileStats key = some range) :
    (∀ row ∈ input.columnRows fileStats key, fileEvidence (input.scalarType key) row ≠ .refute) ∧
      (∀ row ∈ input.columnRows fileStats key, ∀ low high,
        fileEvidence (input.scalarType key) row = .bounds low high → range.1 ≤ low ∧ high ≤ range.2) ∧
      (∃ row ∈ input.columnRows fileStats key, ∃ high, fileEvidence (input.scalarType key) row = .bounds range.1 high) ∧
      ∃ row ∈ input.columnRows fileStats key, ∃ low, fileEvidence (input.scalarType key) row = .bounds low range.2 := by
  have ends : (Extrema.known none).run ((input.columnRows fileStats key).map (fileEvidence (input.scalarType key))) =
      .known (some range) := by
    rw [MirrorStatsInput.range] at known
    cases reached : (Extrema.known none).run
        ((input.columnRows fileStats key).map (fileEvidence (input.scalarType key))) with
    | unknowable =>
      rw [reached] at known
      cases known
    | known last =>
      rw [reached] at known
      exact congrArg Extrema.known known
  refine ⟨?_, ?_, ?_⟩
  · intro row listed refutes
    rw [Extrema.run_refuted (List.mem_map.mpr ⟨row, listed, refutes⟩)] at ends
    cases ends
  · intro row listed low high bounds
    exact (Extrema.run_covers (remembered _ _) ends).1 low high (List.mem_map.mpr ⟨row, listed, bounds⟩)
  · obtain ⟨lower, upper⟩ := Extrema.run_attains ends
    constructor
    · rcases lower with ⟨high, member⟩ | ⟨early, impossible, _⟩
      · obtain ⟨row, listed, same⟩ := List.mem_map.mp member
        exact ⟨row, listed, high, same⟩
      · cases impossible
    · rcases upper with ⟨low, member⟩ | ⟨early, impossible, _⟩
      · obtain ⟨row, listed, same⟩ := List.mem_map.mp member
        exact ⟨row, listed, low, same⟩
      · cases impossible

theorem fileEvidence_bounds {scalarType : CatalogScalarType} {row : FileColumnStatsRow} {low high : ScalarValue}
    (bounds : fileEvidence scalarType row = .bounds low high) :
    (∃ bound ∈ row.minValue, scalarValue scalarType bound = some low) ∧
      ∃ bound ∈ row.maxValue, scalarValue scalarType bound = some high := by
  simp only [fileEvidence] at bounds
  cases lowest : row.minValue with
  | none =>
    cases highest : row.maxValue with
    | none =>
      simp only [lowest, highest] at bounds
      split at bounds <;> cases bounds
    | some maxValue => simp only [lowest, highest, reduceCtorEq] at bounds
  | some minValue =>
    cases highest : row.maxValue with
    | none => simp only [lowest, highest, reduceCtorEq] at bounds
    | some maxValue =>
      simp only [lowest, highest] at bounds
      split at bounds
      · cases bounds
      · obtain ⟨isLow, isHigh⟩ := boundsEvidence_eq_bounds bounds
        exact ⟨⟨minValue, rfl, isLow⟩, maxValue, rfl, isHigh⟩

theorem fileEvidence_ne_silent {scalarType : CatalogScalarType} {row : FileColumnStatsRow}
    (present : row.minValue.isSome ∨ row.maxValue.isSome) : fileEvidence scalarType row ≠ .silent := by
  intro silent
  simp only [fileEvidence] at silent
  cases lowest : row.minValue with
  | none =>
    cases highest : row.maxValue with
    | none => simp [lowest, highest] at present
    | some maxValue => simp only [lowest, highest, reduceCtorEq] at silent
  | some minValue =>
    cases highest : row.maxValue with
    | none => simp only [lowest, highest, reduceCtorEq] at silent
    | some maxValue =>
      simp only [lowest, highest] at silent
      split at silent
      · cases silent
      · rcases boundsEvidence_cases scalarType minValue maxValue with refuted | ⟨_, _, _, _, _, bounds⟩
        · rw [refuted] at silent
          cases silent
        · rw [bounds] at silent
          cases silent

/-- Accepted statistics of which some have bounds come to bounds. -/
theorem range_of_bounded
    (accepted : ∀ row ∈ input.columnRows fileStats key, fileEvidence (input.scalarType key) row ≠ .refute)
    (bounded : ¬∀ row ∈ input.columnRows fileStats key, row.minValue = none ∧ row.maxValue = none) :
    ∃ range, input.range fileStats key = some range := by
  simp only [not_forall, exists_prop] at bounded
  obtain ⟨row, listed, present⟩ := bounded
  have present : row.minValue.isSome ∨ row.maxValue.isSome := by
    by_contra absent
    simp only [not_or, Bool.not_eq_true, Option.isSome_eq_false_iff, Option.isNone_iff_eq_none] at absent
    exact present absent
  have refutes : .refute ∉ (input.columnRows fileStats key).map (fileEvidence (input.scalarType key)) := by
    intro refuted
    obtain ⟨row, listed, same⟩ := List.mem_map.mp refuted
    exact accepted row listed same
  cases evidence : fileEvidence (input.scalarType key) row with
  | bounds low high =>
    obtain ⟨last, reached⟩ := Extrema.run_bounded (List.mem_map.mpr ⟨row, listed, evidence⟩) refutes
      (remembered _ _) none
    exact ⟨last, by rw [range, reached, Extrema.range]⟩
  | refute => exact absurd evidence (accepted row listed)
  | forget => exact absurd evidence (fileEvidence_remembers _ row)
  | silent => exact absurd evidence (fileEvidence_ne_silent present)

theorem range_unsupported (unsupported : input.scalarType key = .unsupported) : input.range fileStats key = none := by
  cases known : input.range fileStats key with
  | none => rfl
  | some range =>
    obtain ⟨_, _, ⟨row, _, high, bounds⟩, _⟩ := range_evidence known
    obtain ⟨⟨bound, _, denotes⟩, _⟩ := fileEvidence_bounds bounds
    rw [unsupported] at denotes
    cases denotes

theorem gathered_shows (exact : input.Exact) (other : OtherScalarOrder) :
    input.Shows fileStats key (((input.columnRows fileStats key).foldl (MirrorColumnStats.merge other)
      { scalarType := input.scalarType key }).mirrorRow key) := by
  obtain ⟨sameType, nulls⟩ := MirrorColumnStats.foldl_merge_keeps other (input.columnRows fileStats key)
    { scalarType := input.scalarType key }
  suffices bounds : _ ∧ _ from ⟨rfl, rfl, nulls.trans (Bool.false_or _), bounds.1, bounds.2⟩
  rcases exact_or_unsupported exact key with isExact | unsupported
  · have tracks := @MirrorColumnStats.foldl_merge_tracks other (input.columnRows fileStats key)
      { scalarType := input.scalarType key } isExact (.known none) ⟨rfl, rfl, rfl⟩
    have bounds := MirrorColumnStats.mirrorRow_bounds tracks key
    rw [sameType] at bounds
    exact bounds
  · obtain ⟨noMin, noMax⟩ := @MirrorColumnStats.foldl_merge_unsupported other (input.columnRows fileStats key)
      { scalarType := input.scalarType key } unsupported ⟨rfl, rfl⟩
    rw [range_unsupported unsupported, MirrorColumnStats.mirrorRow, noMin, noMax, ite_self]
    exact ⟨rfl, rfl⟩

/-- There is a row for each column that the current files have statistics of. -/
theorem mem_recomputed (other : OtherScalarOrder) :
    row ∈ input.recomputed other fileStats ↔ ∃ key, input.columnRows fileStats key ≠ [] ∧
      row = ((input.columnRows fileStats key).foldl (MirrorColumnStats.merge other)
        { scalarType := input.scalarType key }).mirrorRow key := by
  have reported : ∀ key, (∃ row ∈ currentFileStats input.currentDataFiles fileStats, row.columnKey = key) ↔
      input.columnRows fileStats key ≠ [] := by
    intro key
    rw [columnRows, ne_eq, List.filter_eq_nil_iff]
    simp only [decide_eq_true_eq, not_forall, not_not, exists_prop]
  rw [recomputed, recomputeTableColumnStats, List.mem_map]
  constructor
  · rintro ⟨⟨key, stats⟩, listed, rfl⟩
    obtain ⟨present, rfl⟩ := (OrderedMap.get?_gather_empty _).mp ((OrderedMap.get?_eq_some_iff _).mpr listed)
    exact ⟨key, (reported key).mp present, rfl⟩
  · rintro ⟨key, present, rfl⟩
    refine ⟨(key, _), (OrderedMap.get?_eq_some_iff _).mp ?_, rfl⟩
    exact (OrderedMap.get?_gather_empty _).mpr ⟨(reported key).mpr present, rfl⟩

theorem columnRows_current {file : FileColumnStatsRow} (listed : file ∈ input.columnRows fileStats key) :
    file ∈ currentFileStats input.currentDataFiles fileStats ∧ file.columnKey = key := by
  obtain ⟨current, ofKey⟩ := List.mem_filter.mp listed
  exact ⟨current, of_decide_eq_true ofKey⟩

/-! ## Covered columns, and columns of which nothing is assumed -/

section

variable {values : ColumnValues} {other : OtherScalarOrder}

theorem held_in_range (faithful : input.Faithful values) (exact : (input.scalarType key).isExact = true)
    (safe : input.Covered key ∨ input.Unassuming other key) {range : ScalarValue × ScalarValue}
    (known : input.range input.fileStats key = some range) {value : String}
    (holds : input.Holds values key (some value)) :
    ∃ held ∈ scalarValue (input.scalarType key) value, range.1 ≤ held ∧ held ≤ range.2 := by
  obtain ⟨file, current, ofTable, member⟩ := holds
  obtain ⟨accepted, covers, ⟨lowest, lowestListed, high, lowestBounds⟩, _⟩ := range_evidence known
  rcases safe with covered | unassuming
  · obtain ⟨row, listed, ofFile⟩ := covered file current ofTable
    obtain ⟨isCurrent, ofKey⟩ := columnRows_current listed
    have truth := faithful.rows row isCurrent
    rw [ofKey, ofFile] at truth
    obtain ⟨held, denotes, low, high, bounds, above, below⟩ := truth.within (accepted row listed) member
    obtain ⟨lower, upper⟩ := covers row listed low high bounds
    exact ⟨held, denotes, lower.trans above, below.trans upper⟩
  · rcases unassuming.bounds with ⟨row, listed, invalid⟩ | unbounded | spans
    · exact absurd ((typedExtremaAreInvalid_iff exact other row).mp invalid) (accepted row listed)
    · obtain ⟨⟨bound, given, _⟩, _⟩ := fileEvidence_bounds lowestBounds
      rw [(unbounded lowest lowestListed).1] at given
      cases given
    · have readable := faithful.denote key exact file current ofTable value member
      obtain ⟨held, denotes⟩ := Option.isSome_iff_exists.mp readable
      obtain ⟨⟨row, listed, bound, given, low, isLow, above⟩, last, lastListed, lastBound, lastGiven, high, isHigh,
        below⟩ := spans value held denotes
      have bounded : ∀ row ∈ input.columnRows input.fileStats key, row.minValue.isSome ∨ row.maxValue.isSome →
          ∃ low high, fileEvidence (input.scalarType key) row = .bounds low high := by
        intro row listed present
        have notRefuted := accepted row listed
        cases evidence : fileEvidence (input.scalarType key) row with
        | bounds low high => exact ⟨low, high, rfl⟩
        | refute => exact absurd evidence notRefuted
        | forget => exact absurd evidence (fileEvidence_remembers _ row)
        | silent => exact absurd evidence (fileEvidence_ne_silent present)
      refine ⟨held, denotes, ?_, ?_⟩
      · obtain ⟨first, second, bounds⟩ := bounded row listed (Or.inl (Option.isSome_of_mem given))
        obtain ⟨⟨same, sameGiven, sameLow⟩, _⟩ := fileEvidence_bounds bounds
        obtain rfl := Option.some.inj (given.symm.trans sameGiven)
        obtain rfl := Option.some.inj (isLow.symm.trans sameLow)
        exact (covers row listed _ _ bounds).1.trans above
      · obtain ⟨first, second, bounds⟩ := bounded last lastListed (Or.inr (Option.isSome_of_mem lastGiven))
        obtain ⟨_, same, sameGiven, sameHigh⟩ := fileEvidence_bounds bounds
        obtain rfl := Option.some.inj (lastGiven.symm.trans sameGiven)
        obtain rfl := Option.some.inj (isHigh.symm.trans sameHigh)
        exact below.trans (covers last lastListed _ _ bounds).2

/-- A row shows the bounds that are known, and only those. -/
theorem Shows.range_of_bound {bound : String} (shows : input.Shows fileStats key row) :
    (row.minValue = some bound → ∃ range, input.range fileStats key = some range ∧
      scalarValue (input.scalarType key) bound = some range.1) ∧
    (row.maxValue = some bound → ∃ range, input.range fileStats key = some range ∧
      scalarValue (input.scalarType key) bound = some range.2) := by
  constructor
  · intro given
    have minimum := shows.minimum
    rw [given, Option.map_some, eq_comm, Option.map_eq_some_iff] at minimum
    obtain ⟨range, known, denotes⟩ := minimum
    exact ⟨range, known, denotes.symm⟩
  · intro given
    have maximum := shows.maximum
    rw [given, Option.map_some, eq_comm, Option.map_eq_some_iff] at maximum
    obtain ⟨range, known, denotes⟩ := maximum
    exact ⟨range, known, denotes.symm⟩

theorem Shows.sound (exact : input.Exact) (faithful : input.Faithful values)
    (shows : input.Shows input.fileStats key row) (safe : input.Covered key ∨ input.Unassuming other key) :
    input.RowSound values row := by
  have sameKey : toLex (row.tableId, row.columnId) = key := by
    rw [shows.tableId, shows.columnId]
    rfl
  have isExact : ∀ {range}, input.range input.fileStats key = some range → (input.scalarType key).isExact = true := by
    intro range known
    rcases exact_or_unsupported exact key with isExact | unsupported
    · exact isExact
    · rw [range_unsupported unsupported] at known
      cases known
  refine ⟨?_, ?_, ?_⟩
  · rw [sameKey]
    intro bound given value holds
    obtain ⟨range, known, denotes⟩ := shows.range_of_bound.1 given
    obtain ⟨held, isHeld, lower, _⟩ := held_in_range faithful (isExact known) safe known holds
    exact ⟨range.1, denotes, held, isHeld, lower⟩
  · rw [sameKey]
    intro bound given value holds
    obtain ⟨range, known, denotes⟩ := shows.range_of_bound.2 given
    obtain ⟨held, isHeld, _, upper⟩ := held_in_range faithful (isExact known) safe known holds
    exact ⟨held, isHeld, range.2, denotes, upper⟩
  · rw [sameKey, shows.containsNull, List.any_eq_false]
    rintro noNulls ⟨file, current, ofTable, member⟩
    rcases safe with covered | unassuming
    · obtain ⟨reported, listed, ofFile⟩ := covered file current ofTable
      obtain ⟨isCurrent, ofKey⟩ := columnRows_current listed
      have truth := faithful.rows reported isCurrent
      rw [ofKey, ofFile] at truth
      have counted : 0 < reported.nullCount := by
        rw [truth.nullCount, List.countP_pos_iff]
        exact ⟨none, member, rfl⟩
      exact noNulls reported listed (decide_eq_true counted)
    · obtain ⟨reported, listed, counted⟩ := unassuming.nulls
      exact noNulls reported listed (decide_eq_true counted)

theorem Shows.stable {statistics : List FileColumnStatsRow} (reordered : fileStats.Perm statistics)
    {same : TableColumnStatsMirrorRow} (shows : input.Shows fileStats key row)
    (showsSame : input.Shows statistics key same) : SameRow (input.scalarType key) row same := by
  have moved : (input.columnRows fileStats key).Perm (input.columnRows statistics key) :=
    (reordered.filter _).filter _
  have sameRange : input.range statistics key = input.range fileStats key := by
    rw [range, range, Extrema.run_perm (moved.map _) fun _ _ mixed => remembered _ _ mixed.1]
  refine ⟨showsSame.tableId.trans shows.tableId.symm, showsSame.columnId.trans shows.columnId.symm, ?_, ?_, ?_⟩
  · rw [showsSame.containsNull, shows.containsNull, moved.any_eq]
  · rw [showsSame.minimum, shows.minimum, sameRange]
  · rw [showsSame.maximum, shows.maximum, sameRange]

/-! ## Columns that some current file says nothing about -/

/-- The values with others for one column of one file. -/
def replaceValues (values : ColumnValues) (key : TableId ×ₗ ColumnId) (dataFileId : DataFileId)
    (replaced : List (Option String)) : ColumnValues :=
  fun column file => if column = key ∧ file = dataFileId then replaced else values column file

theorem Faithful.replace (faithful : input.Faithful values) {dataFileId : DataFileId} {replaced : List (Option String)}
    (unreported : ∀ row ∈ input.columnRows input.fileStats key, row.dataFileId ≠ dataFileId)
    (readable : ∀ value, some value ∈ replaced → (scalarValue (input.scalarType key) value).isSome) :
    input.Faithful (replaceValues values key dataFileId replaced) := by
  constructor
  · intro row current
    have kept : ¬(row.columnKey = key ∧ row.dataFileId = dataFileId) := by
      rintro ⟨ofKey, ofFile⟩
      exact unreported row (List.mem_filter.mpr ⟨current, decide_eq_true ofKey⟩) ofFile
    rw [replaceValues, if_neg kept]
    exact faithful.rows row current
  · intro column exact file current ofTable value member
    by_cases same : column = key ∧ file.dataFileId = dataFileId
    · rw [replaceValues, if_pos same] at member
      exact same.1 ▸ readable value member
    · rw [replaceValues, if_neg same] at member
      exact faithful.denote column exact file current ofTable value member

/-- Any values may be in a file without statistics, so sound rows assume nothing of them. -/
theorem Sound.unassuming (sound : input.Sound other) (exact : input.Exact) (faithful : input.Faithful values)
    (reported : input.columnRows input.fileStats key ≠ []) (uncovered : ¬input.Covered key) :
    input.Unassuming other key := by
  obtain ⟨file, current, ofTable, unreported⟩ : ∃ file ∈ input.currentDataFiles, file.tableId = key.1 ∧
      ∀ row ∈ input.columnRows input.fileStats key, row.dataFileId ≠ file.dataFileId := by
    simpa only [Covered, not_forall, not_exists, not_and, exists_prop, ne_eq] using uncovered
  have shows := @gathered_shows input input.fileStats key exact other
  have listed := (mem_recomputed other).mpr ⟨key, reported, rfl⟩
  generalize (List.foldl (MirrorColumnStats.merge other) { scalarType := input.scalarType key }
    (input.columnRows input.fileStats key)).mirrorRow key = row at shows listed
  have sameKey : toLex (row.tableId, row.columnId) = key := by
    rw [shows.tableId, shows.columnId]
    rfl
  have holds : ∀ (replaced : List (Option String)) (value : Option String), value ∈ replaced →
      input.Holds (replaceValues values key file.dataFileId replaced) (toLex (row.tableId, row.columnId)) value := by
    intro replaced value member
    rw [sameKey]
    refine ⟨file, current, ofTable, ?_⟩
    rw [replaceValues, if_pos ⟨rfl, rfl⟩]
    exact member
  constructor
  · by_contra noNulls
    have unknown := sound.rows _ (@faithful.replace _ _ _ _ [none] unreported (by simp)) row listed
    refine unknown.nulls ?_ (holds [none] none List.mem_cons_self)
    rw [shows.containsNull, List.any_eq_false]
    intro reportedRow member counted
    exact noNulls ⟨reportedRow, member, of_decide_eq_true counted⟩
  · rcases exact_or_unsupported exact key with isExact | unsupported
    · by_cases refuted : ∃ row ∈ input.columnRows input.fileStats key, typedExtremaAreInvalid other
          (input.scalarType key) row.valueCount row.nullCount row.minValue row.maxValue = true
      · exact Or.inl refuted
      · right
        have accepted : ∀ row ∈ input.columnRows input.fileStats key,
            fileEvidence (input.scalarType key) row ≠ .refute := by
          intro row member refutes
          exact refuted ⟨row, member, (typedExtremaAreInvalid_iff isExact other row).mpr refutes⟩
        by_cases unbounded : ∀ row ∈ input.columnRows input.fileStats key, row.minValue = none ∧ row.maxValue = none
        · exact Or.inl unbounded
        · right
          intro text value denotes
          obtain ⟨range, known⟩ := range_of_bounded accepted unbounded
          have unknown := sound.rows _ (@faithful.replace _ _ _ _ [some text] unreported (by
            intro other member
            obtain rfl := Option.some.inj (List.mem_singleton.mp member)
            exact Option.isSome_of_mem denotes)) row listed
          have minimum := shows.minimum
          have maximum := shows.maximum
          rw [known, Option.map_some, Option.map_eq_some_iff] at minimum maximum
          obtain ⟨low, isMin, lowDenotes⟩ := minimum
          obtain ⟨high, isMax, highDenotes⟩ := maximum
          obtain ⟨_, _, ⟨first, firstListed, _, firstBounds⟩, last, lastListed, _, lastBounds⟩ := range_evidence known
          obtain ⟨⟨bound, given, isLow⟩, _⟩ := fileEvidence_bounds firstBounds
          obtain ⟨_, lastBound, lastGiven, isHigh⟩ := fileEvidence_bounds lastBounds
          obtain ⟨least, isLeast, held, isHeld, lower⟩ := unknown.minimum low isMin text (holds _ _ List.mem_cons_self)
          obtain ⟨same, isSame, greatest, isGreatest, upper⟩ :=
            unknown.maximum high isMax text (holds _ _ List.mem_cons_self)
          rw [sameKey] at isLeast isHeld isSame isGreatest
          obtain rfl := Option.some.inj (lowDenotes.symm.trans isLeast)
          obtain rfl := Option.some.inj (highDenotes.symm.trans isGreatest)
          obtain rfl := Option.some.inj (denotes.symm.trans isHeld)
          obtain rfl := Option.some.inj (isHeld.symm.trans isSame)
          exact ⟨⟨first, firstListed, bound, given, _, isLow, lower⟩, last, lastListed, lastBound, lastGiven, _, isHigh,
            upper⟩
    · refine Or.inr (Or.inr fun text value denotes => ?_)
      rw [unsupported] at denotes
      cases denotes

/-- The recomputed rows are sound exactly when each of them is of a column that all current files of the table have
statistics of, or of one of which nothing is assumed. -/
theorem recomputeTableColumnStats_sound_iff (other : OtherScalarOrder) (exact : input.Exact)
    (faithful : input.Faithful values) :
    input.Sound other ↔ ∀ key, input.columnRows input.fileStats key ≠ [] →
      input.Covered key ∨ input.Unassuming other key := by
  constructor
  · intro sound key reported
    by_cases covered : input.Covered key
    · exact Or.inl covered
    · exact Or.inr (sound.unassuming exact faithful reported covered)
  · intro safe
    constructor
    · intro values faithful row listed
      obtain ⟨key, reported, rfl⟩ := (mem_recomputed other).mp listed
      exact (gathered_shows exact other).sound exact faithful (safe key reported)
    · intro fileStats reordered row listed
      obtain ⟨key, reported, rfl⟩ := (mem_recomputed other).mp listed
      have moved : (input.columnRows input.fileStats key).Perm (input.columnRows fileStats key) :=
        (reordered.filter _).filter _
      refine ⟨_, (mem_recomputed other).mpr ⟨key, ?_, rfl⟩,
        (gathered_shows exact other).stable reordered (gathered_shows exact other)⟩
      intro unreported
      exact reported (moved.trans (List.Perm.of_eq unreported)).eq_nil

end

end

end MirrorStatsInput

/-! ## Two files, with statistics of one or of both -/

def mirrorFile (dataFileId : DataFileId) : DataFileRow :=
  { dataFileId, tableId := 8, path := "", recordCount := 1, fileSizeBytes := 1, validity := ⟨1, none⟩ }

/-- Statistics of a file that holds this value only. -/
def oneValueStats (dataFileId : DataFileId) (text : String) : FileColumnStatsRow :=
  { dataFileId, tableId := 8, columnId := 1, valueCount := some 1, minValue := some text, maxValue := some text }

def mirrorInput (fileStats : List FileColumnStatsRow) : MirrorStatsInput where
  tables := [boundsTable]
  currentDataFiles := [mirrorFile 1, mirrorFile 2]
  fileStats := fileStats

def mirrorValues (second : Option String) : ColumnValues := fun key dataFileId =>
  if key = toLex (8, 1) then if dataFileId = 1 then [some "5"] else [second] else []

theorem mirrorInput_exact (fileStats : List FileColumnStatsRow) : (mirrorInput fileStats).Exact := by
  intro table inTables column inColumns
  obtain rfl := List.mem_singleton.mp inTables
  obtain rfl := List.mem_singleton.mp inColumns
  decide +kernel

theorem oneValueStats_faithful (scalarType : CatalogScalarType) (dataFileId : DataFileId) (text : String) :
    (oneValueStats dataFileId text).Faithful scalarType [some text] := by
  refine ⟨rfl, fun _ counted => (Option.some.inj counted).symm, ?_, ?_⟩
  · intro bound low given denotes value held
    obtain rfl := Option.some.inj given
    obtain rfl := Option.some.inj (List.mem_singleton.mp held)
    exact ⟨low, denotes, le_rfl⟩
  · intro bound high given denotes value held
    obtain rfl := Option.some.inj given
    obtain rfl := Option.some.inj (List.mem_singleton.mp held)
    exact ⟨high, denotes, le_rfl⟩

theorem mirrorInput_denotes (fileStats : List FileColumnStatsRow) {second : Option String}
    (small : ∀ text ∈ second, text = "7") (key : TableId ×ₗ ColumnId) (dataFileId : DataFileId) (value : String)
    (member : some value ∈ mirrorValues second key dataFileId) :
    (scalarValue ((mirrorInput fileStats).scalarType key) value).isSome := by
  rw [mirrorValues] at member
  split_ifs at member with ofColumn first
  · obtain rfl := Option.some.inj (List.mem_singleton.mp member)
    subst ofColumn
    exact show (scalarValue (mirrorColumnType [boundsTable] (toLex (8, 1))) "5").isSome by decide +kernel
  · obtain rfl := small value (List.mem_singleton.mp member).symm
    subst ofColumn
    exact show (scalarValue (mirrorColumnType [boundsTable] (toLex (8, 1))) "7").isSome by decide +kernel
  · cases member

theorem mirrorInput_faithful :
    (mirrorInput [oneValueStats 1 "5", oneValueStats 2 "7"]).Faithful (mirrorValues (some "7")) where
  rows := by
    intro row current
    rcases List.mem_pair.mp (List.mem_filter.mp current).1 with rfl | rfl
    · exact oneValueStats_faithful _ 1 "5"
    · exact oneValueStats_faithful _ 2 "7"
  denote := fun key _ file _ _ =>
    mirrorInput_denotes _ (fun _ given => (Option.some.inj given).symm) key file.dataFileId

/-- Both files have statistics. -/
theorem recomputeTableColumnStats_sound_covered :
    (mirrorInput [oneValueStats 1 "5", oneValueStats 2 "7"]).Sound (fun _ _ _ => none) := by
  refine (MirrorStatsInput.recomputeTableColumnStats_sound_iff _ (mirrorInput_exact _) mirrorInput_faithful).mpr ?_
  intro key reported
  obtain ⟨row, listed⟩ := List.exists_mem_of_ne_nil _ reported
  obtain ⟨current, rfl⟩ := MirrorStatsInput.columnRows_current listed
  have ofColumn : row.columnKey = toLex (8, 1) := by
    rcases List.mem_pair.mp (List.mem_filter.mp current).1 with rfl | rfl <;> rfl
  rw [ofColumn]
  refine Or.inl fun file member _ => ?_
  rcases List.mem_pair.mp member with rfl | rfl
  · exact ⟨oneValueStats 1 "5", by decide, rfl⟩
  · exact ⟨oneValueStats 2 "7", by decide, rfl⟩

/-- The second file holds a null, and has no statistics. -/
theorem recomputeTableColumnStats_uncovered : ¬∀ (other : OtherScalarOrder) (input : MirrorStatsInput)
    (values : ColumnValues), input.Exact → input.Faithful values → input.Sound other := by
  intro always
  have faithful : (mirrorInput [oneValueStats 1 "5"]).Faithful (mirrorValues none) := by
    constructor
    · intro row current
      obtain rfl := List.mem_singleton.mp (List.mem_filter.mp current).1
      exact oneValueStats_faithful _ 1 "5"
    · intro key _ file _ _
      exact mirrorInput_denotes _ (fun _ given => absurd given (Option.not_mem_none _)) key file.dataFileId
  have sound := always (fun _ _ _ => none) _ _ (mirrorInput_exact _) faithful
  have recomputed : (mirrorInput [oneValueStats 1 "5"]).recomputed (fun _ _ _ => none) [oneValueStats 1 "5"] =
      [⟨8, 1, false, some "5", some "5"⟩] := by decide +kernel
  have row := sound.rows _ faithful ⟨8, 1, false, some "5", some "5"⟩ (recomputed ▸ List.mem_cons_self)
  exact row.nulls rfl ⟨mirrorFile 2, List.mem_cons_of_mem _ List.mem_cons_self, rfl, List.mem_cons_self⟩

end DucklakeCatalog
