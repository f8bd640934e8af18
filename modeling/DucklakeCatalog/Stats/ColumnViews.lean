import DucklakeCatalog.KeyedStore.Fallible
import DucklakeCatalog.Stats.ColumnEvidence

/-! The statistics of a table seen from one of its columns. -/
namespace DucklakeCatalog

open KeyedStore ScalarOrder

/-- What the statistics of a table keep about the nulls and bounds of a column. -/
structure ColumnView where
  containsNull : Bool
  extrema : Extrema ScalarValue

namespace ColumnView

def unseen : ColumnView := { containsNull := false, extrema := .known none }

def mergeInline (view : ColumnView) (scalarType : CatalogScalarType) (inline : InlineStatsMerge) : ColumnView where
  containsNull := view.containsNull || (inline.hasContainsNull && inline.containsNull)
  extrema := view.extrema.step (inlineEvidence scalarType inline)

def mergeFile (view : ColumnView) (scalarType : CatalogScalarType) (row : FileColumnStatsRow) : ColumnView where
  containsNull := view.containsNull || decide (0 < row.nullCount)
  extrema := view.extrema.step (fileEvidence scalarType row)

end ColumnView

/-! ## What a payload says about a column -/

def InlineStatsLine.recordCount? : InlineStatsLine → Option Nat
  | .tableStats recordCount _ | .aggregateStats recordCount => some recordCount
  | _ => none

/-- The column a line reports on, and what it reports for this record count. -/
def InlineStatsLine.merge? (recordCount : Nat) : InlineStatsLine → Option (ColumnId × InlineStatsMerge)
  | .columnStats columnId hasContainsNull containsNull minValue maxValue =>
    some (columnId, ⟨hasContainsNull, containsNull, hasContainsNull && !containsNull, minValue, maxValue⟩)
  | .aggregateColumnStats columnId nonNullCount minValue maxValue =>
    some (columnId, ⟨true, decide (nonNullCount < recordCount), decide (0 < nonNullCount), minValue, maxValue⟩)
  | _ => none

/-- Reports of the lines, in order, with the record count that held at each. -/
def reportsFrom (recordCount : Nat) : List InlineStatsLine → List (ColumnId × InlineStatsMerge)
  | [] => []
  | line :: rest => (line.merge? recordCount).toList ++ reportsFrom (line.recordCount?.getD recordCount) rest

def recordCountAfter (recordCount : Nat) (lines : List InlineStatsLine) : Nat :=
  lines.foldl (fun count line => line.recordCount?.getD count) recordCount

/-- All a payload merges into a column, its default included. -/
def payloadMerges (schema : GlobalStatsSchema) (lines : List InlineStatsLine) (columnId : ColumnId) :
    List InlineStatsMerge :=
  let reports := reportsFrom 0 lines
  (reports.filter fun report => report.1 = columnId).map (·.2) ++
    if 0 < recordCountAfter 0 lines ∧ columnId ∉ reports.map (·.1) then [GlobalTableStats.defaultMerge schema columnId]
    else []

/-- Columns the lines of a payload report on. -/
def InlineStatsLine.columnId? : InlineStatsLine → Option ColumnId
  | .columnStats columnId .. | .aggregateColumnStats columnId .. | .columnExtraStats columnId _ => some columnId
  | _ => none

def ColumnView.mergeAll (view : ColumnView) (scalarType : CatalogScalarType) (merges : List InlineStatsMerge) :
    ColumnView := merges.foldl (·.mergeInline scalarType ·) view

namespace GlobalTableStats

/-- The statistics keep exactly this about the column. -/
structure Shows (stats : GlobalTableStats) (columnId : ColumnId) (view : ColumnView) : Prop where
  scalarType : (stats.statsForColumn columnId).scalarType = stats.schema.scalarType columnId
  containsNull : (stats.statsForColumn columnId).containsNull = view.containsNull
  tracks : (stats.statsForColumn columnId).Tracks view.extrema

theorem Shows.of_same {left right : GlobalTableStats} {columnId : ColumnId} {view : ColumnView}
    (shows : left.Shows columnId view) (sameSchema : right.schema = left.schema)
    (sameColumn : right.columns.get? columnId = left.columns.get? columnId) : right.Shows columnId view := by
  have same : right.statsForColumn columnId = left.statsForColumn columnId := by
    simp only [statsForColumn, sameSchema, sameColumn]
  exact ⟨by rw [same, sameSchema, shows.scalarType], by rw [same, shows.containsNull],
    by rw [same]; exact shows.tracks⟩

theorem new_shows (table : TableRow) (allocatedNextRowId : Nat) (columnId : ColumnId) :
    (new table allocatedNextRowId).Shows columnId ColumnView.unseen :=
  ⟨rfl, rfl, rfl, rfl, rfl⟩

theorem statsForColumn_updateColumn (stats : GlobalTableStats) (updated columnId : ColumnId)
    (update : GlobalColumnStats → GlobalColumnStats) :
    (stats.updateColumn updated update).statsForColumn columnId =
      if columnId = updated then update (stats.statsForColumn updated) else stats.statsForColumn columnId := by
  simp only [statsForColumn, updateColumn, OrderedMap.get?_insert]
  by_cases same : columnId = updated
  · simp [same]
  · simp [same]

theorem Shows.updateColumn_ne {stats : GlobalTableStats} {columnId updated : ColumnId} {view : ColumnView}
    (shows : stats.Shows columnId view) (different : columnId ≠ updated)
    (update : GlobalColumnStats → GlobalColumnStats) : (stats.updateColumn updated update).Shows columnId view := by
  have sameSchema : (stats.updateColumn updated update).schema = stats.schema := rfl
  exact shows.of_same sameSchema (OrderedMap.get?_insert_ne _ _ different)

theorem Shows.updateColumn {stats : GlobalTableStats} {columnId : ColumnId} {view next : ColumnView}
    {update : GlobalColumnStats → GlobalColumnStats} (shows : stats.Shows columnId view)
    (sameType : (update (stats.statsForColumn columnId)).scalarType = (stats.statsForColumn columnId).scalarType)
    (containsNull : (update (stats.statsForColumn columnId)).containsNull = next.containsNull)
    (tracks : (update (stats.statsForColumn columnId)).Tracks next.extrema) :
    (stats.updateColumn columnId update).Shows columnId next := by
  have here : (stats.updateColumn columnId update).statsForColumn columnId = update (stats.statsForColumn columnId) := by
    rw [statsForColumn_updateColumn, if_pos rfl]
  refine ⟨?_, ?_, ?_⟩
  · rw [here, sameType, shows.scalarType]
    rfl
  · rw [here, containsNull]
  · rw [here]
    exact tracks

section

variable {stats : GlobalTableStats} {columnId : ColumnId} {view : ColumnView}
  (exact : (stats.schema.scalarType columnId).isExact = true) (other : OtherScalarOrder)
  (mergeGlobalExtraStats : String → String → String)

include exact

theorem Shows.mergeInline (shows : stats.Shows columnId view) (updated : ColumnId) (inline : InlineStatsMerge) :
    (stats.updateColumn updated fun column => column.mergeInline other inline).Shows columnId
      (if updated = columnId then view.mergeInline (stats.schema.scalarType columnId) inline else view) := by
  by_cases same : updated = columnId
  · subst same
    rw [if_pos rfl]
    obtain ⟨sameType, nulls⟩ := (stats.statsForColumn updated).mergeInline_keeps other inline
    have tracks := GlobalColumnStats.mergeInline_tracks (by rwa [shows.scalarType]) other shows.tracks inline
    rw [shows.scalarType] at tracks
    exact shows.updateColumn sameType (by rw [nulls, shows.containsNull]; rfl) tracks
  · rw [if_neg same]
    exact shows.updateColumn_ne (fun equal => same equal.symm) _

theorem Shows.mergeFile (shows : stats.Shows columnId view) (row : FileColumnStatsRow) :
    (stats.updateColumn row.columnId fun column => column.mergeFile other mergeGlobalExtraStats row).Shows columnId
      (if row.columnId = columnId then view.mergeFile (stats.schema.scalarType columnId) row else view) := by
  by_cases same : row.columnId = columnId
  · subst same
    rw [if_pos rfl]
    obtain ⟨sameType, nulls⟩ := (stats.statsForColumn row.columnId).mergeFile_keeps other mergeGlobalExtraStats row
    have tracks := GlobalColumnStats.mergeFile_tracks (by rwa [shows.scalarType]) other mergeGlobalExtraStats
      shows.tracks row
    rw [shows.scalarType] at tracks
    exact shows.updateColumn sameType (by rw [nulls, shows.containsNull]; rfl) tracks
  · rw [if_neg same]
    exact shows.updateColumn_ne (fun equal => same equal.symm) _

end

theorem Shows.mergeExtraStats {stats : GlobalTableStats} {columnId : ColumnId} {view : ColumnView}
    (shows : stats.Shows columnId view) (merge : String → String → String) (updated : ColumnId) (extraStats : String) :
    (stats.updateColumn updated fun column => column.mergeExtraStats merge extraStats).Shows columnId view := by
  by_cases same : updated = columnId
  · subst same
    obtain ⟨_, _, merged⟩ := (stats.statsForColumn updated).mergeExtraStats_keeps merge extraStats
    apply shows.updateColumn
    · rw [merged]
    · rw [merged]
      exact shows.containsNull
    · rw [merged]
      exact shows.tracks.of_same rfl rfl ⟨rfl, rfl⟩ ⟨rfl, rfl⟩
  · exact shows.updateColumn_ne (fun equal => same equal.symm) _

/-! ## A payload -/

def columnReports (columnId : ColumnId) (reports : List (ColumnId × InlineStatsMerge)) : List InlineStatsMerge :=
  (reports.filter fun report => report.1 = columnId).map (·.2)

theorem isSome_updateColumn (stats : GlobalTableStats) (updated columnId : ColumnId)
    (update : GlobalColumnStats → GlobalColumnStats) :
    ((stats.updateColumn updated update).columns.get? columnId).isSome ↔
      (stats.columns.get? columnId).isSome ∨ updated = columnId := by
  simp only [updateColumn, OrderedMap.get?_insert]
  by_cases same : columnId = updated
  · simp [same]
  · simp [same, Ne.symm same]

section

variable (other : OtherScalarOrder) (mergeGlobalExtraStats : String → String → String)

theorem accumulateLine_reads (reading : InlineReading) (line : InlineStatsLine) :
    (reading.accumulateLine other mergeGlobalExtraStats line).stats.schema = reading.stats.schema ∧
      (reading.accumulateLine other mergeGlobalExtraStats line).currentInlineRecordCount =
        line.recordCount?.getD reading.currentInlineRecordCount ∧
      (∀ columnId, columnId ∈ (reading.accumulateLine other mergeGlobalExtraStats line).observedColumns ↔
        columnId ∈ reading.observedColumns ∨
          columnId ∈ (line.merge? reading.currentInlineRecordCount).toList.map (·.1)) ∧
      ∀ columnId, ((reading.accumulateLine other mergeGlobalExtraStats line).stats.columns.get? columnId).isSome ↔
        (reading.stats.columns.get? columnId).isSome ∨ line.columnId? = some columnId := by
  cases line <;> refine ⟨rfl, rfl, ?_, ?_⟩ <;> intro columnId
  all_goals simp [InlineReading.accumulateLine, InlineReading.mergeColumn, InlineStatsLine.merge?,
    InlineStatsLine.columnId?, isSome_updateColumn, List.mem_insert_iff, or_comm]

theorem accumulateLine_shows {reading : InlineReading} {columnId : ColumnId} {view : ColumnView}
    (exact : (reading.stats.schema.scalarType columnId).isExact = true) (shows : reading.stats.Shows columnId view)
    (line : InlineStatsLine) :
    (reading.accumulateLine other mergeGlobalExtraStats line).stats.Shows columnId
      (view.mergeAll (reading.stats.schema.scalarType columnId)
        (columnReports columnId (line.merge? reading.currentInlineRecordCount).toList)) := by
  have merges : ∀ (updated : ColumnId) (inline : InlineStatsMerge),
      (reading.stats.updateColumn updated fun column => column.mergeInline other inline).Shows columnId
        (view.mergeAll (reading.stats.schema.scalarType columnId) (columnReports columnId [(updated, inline)])) := by
    intro updated inline
    have merged := shows.mergeInline exact other updated inline
    by_cases same : updated = columnId
    · simpa [same, columnReports, ColumnView.mergeAll] using merged
    · simpa [same, columnReports, ColumnView.mergeAll] using merged
  cases line with
  | tableStats _ _ | aggregateStats _ | aggregateNextRowId _ => exact shows.of_same rfl rfl
  | columnStats updated _ _ _ _
  | aggregateColumnStats updated _ _ _ => exact merges updated _
  | columnExtraStats updated extraStats => exact shows.mergeExtraStats mergeGlobalExtraStats updated extraStats
  | other => exact shows

theorem accumulateLines_reads (reading : InlineReading) (lines : List InlineStatsLine) :
    let read := lines.foldl (InlineReading.accumulateLine other mergeGlobalExtraStats) reading
    read.stats.schema = reading.stats.schema ∧
      read.currentInlineRecordCount = recordCountAfter reading.currentInlineRecordCount lines ∧
      (∀ columnId, columnId ∈ read.observedColumns ↔ columnId ∈ reading.observedColumns ∨
        columnId ∈ (reportsFrom reading.currentInlineRecordCount lines).map (·.1)) ∧
      ∀ columnId, (read.stats.columns.get? columnId).isSome ↔
        (reading.stats.columns.get? columnId).isSome ∨ columnId ∈ lines.filterMap (·.columnId?) := by
  induction lines generalizing reading with
  | nil => simp [recordCountAfter, reportsFrom]
  | cons line rest ih =>
    obtain ⟨schema, count, observed, present⟩ := accumulateLine_reads other mergeGlobalExtraStats reading line
    obtain ⟨laterSchema, laterCount, laterObserved, laterPresent⟩ :=
      ih (reading.accumulateLine other mergeGlobalExtraStats line)
    refine ⟨laterSchema.trans schema, ?_, ?_, ?_⟩
    · rw [List.foldl_cons, laterCount, count]
      rfl
    · intro columnId
      rw [List.foldl_cons, laterObserved, observed, count]
      simp only [reportsFrom, List.map_append, List.mem_append, or_assoc]
    · intro columnId
      rw [List.foldl_cons, laterPresent, present, List.mem_filterMap, List.mem_filterMap]
      simp only [List.mem_cons, exists_eq_or_imp, or_assoc]

theorem accumulateLines_shows {reading : InlineReading} {columnId : ColumnId} {view : ColumnView}
    (exact : (reading.stats.schema.scalarType columnId).isExact = true) (shows : reading.stats.Shows columnId view)
    (lines : List InlineStatsLine) :
    (lines.foldl (InlineReading.accumulateLine other mergeGlobalExtraStats) reading).stats.Shows columnId
      (view.mergeAll (reading.stats.schema.scalarType columnId)
        (columnReports columnId (reportsFrom reading.currentInlineRecordCount lines))) := by
  induction lines generalizing reading view with
  | nil => exact shows
  | cons line rest ih =>
    obtain ⟨schema, count, _, _⟩ := accumulateLine_reads other mergeGlobalExtraStats reading line
    have later := ih (by rwa [schema]) (accumulateLine_shows other mergeGlobalExtraStats exact shows line)
    rw [schema, count] at later
    simpa only [List.foldl_cons, reportsFrom, columnReports, List.filter_append, List.map_append, ColumnView.mergeAll,
      List.foldl_append] using later

end

/-! ## Columns a payload leaves out -/

theorem leafColumnIds_nodup (table : TableRow) : (leafColumnIds table).Nodup :=
  (List.perm_insertionSort _ _).nodup_iff.mpr (List.nodup_dedup _)

theorem mergeDefaults_shows {columnId : ColumnId} (other : OtherScalarOrder) (schema : GlobalStatsSchema)
    (exact : (schema.scalarType columnId).isExact = true) {ids : List ColumnId} (distinct : ids.Nodup)
    {stats : GlobalTableStats} {view : ColumnView} (sameSchema : stats.schema = schema)
    (shows : stats.Shows columnId view) :
    let merged := ids.foldl (fun stats id =>
      stats.updateColumn id fun column => column.mergeInline other (defaultMerge stats.schema id)) stats
    merged.schema = schema ∧
      (∀ other, (merged.columns.get? other).isSome ↔ (stats.columns.get? other).isSome ∨ other ∈ ids) ∧
      merged.Shows columnId (view.mergeAll (schema.scalarType columnId)
        (if columnId ∈ ids then [defaultMerge schema columnId] else [])) := by
  induction ids generalizing stats view with
  | nil => exact ⟨sameSchema, by simp, shows⟩
  | cons id rest ih =>
    obtain ⟨notLater, distinct⟩ := List.nodup_cons.mp distinct
    obtain rfl := sameSchema
    have step := shows.mergeInline exact other id (defaultMerge stats.schema id)
    have kept : (stats.updateColumn id fun column => column.mergeInline other (defaultMerge stats.schema id)).schema =
      stats.schema := rfl
    obtain ⟨schemaAfter, presentAfter, showsAfter⟩ := ih distinct kept step
    refine ⟨schemaAfter, ?_, ?_⟩
    · intro column
      rw [List.foldl_cons, presentAfter, isSome_updateColumn, List.mem_cons, or_assoc, @eq_comm _ id column]
    · rw [List.foldl_cons]
      by_cases same : id = columnId
      · subst same
        simpa [notLater, ColumnView.mergeAll] using showsAfter
      · simpa [same, Ne.symm same] using showsAfter

theorem accumulateInlinePayload_shows {columnId : ColumnId} (other : OtherScalarOrder)
    (mergeGlobalExtraStats : String → String → String) {stats next : GlobalTableStats} {view : ColumnView}
    (exact : (stats.schema.scalarType columnId).isExact = true) (distinct : stats.schema.leafColumnIds.Nodup)
    (leaf : columnId ∈ stats.schema.leafColumnIds) (shows : stats.Shows columnId view) {payload : List (List String)}
    {lines : List InlineStatsLine} (decoded : payload.mapM parseInlineStatsLine = .ok lines)
    (reads : stats.accumulateInlinePayload other mergeGlobalExtraStats payload = .ok next) :
    next.schema = stats.schema ∧
      next.Shows columnId (view.mergeAll (stats.schema.scalarType columnId)
        (payloadMerges stats.schema lines columnId)) ∧
      ((next.columns.get? columnId).isSome ↔ (stats.columns.get? columnId).isSome ∨
        columnId ∈ lines.filterMap (·.columnId?) ∨
        0 < recordCountAfter 0 lines ∧ columnId ∉ (reportsFrom 0 lines).map (·.1)) := by
  obtain ⟨schema, count, observed, present⟩ := accumulateLines_reads other mergeGlobalExtraStats { stats } lines
  have read := @accumulateLines_shows other mergeGlobalExtraStats { stats } columnId view exact shows lines
  simp only [accumulateInlinePayload, decoded, bind, Except.bind] at reads
  generalize lines.foldl (InlineReading.accumulateLine other mergeGlobalExtraStats) { stats } = reading
    at schema count observed present read reads
  have listed : columnId ∈ reading.observedColumns ↔ columnId ∈ (reportsFrom 0 lines).map (·.1) := by
    simpa using observed columnId
  by_cases counted : 0 < recordCountAfter 0 lines
  · rw [count, if_pos counted] at reads
    obtain rfl := Except.ok.inj reads
    have ids : columnId ∈ reading.stats.schema.leafColumnIds.filter (· ∉ reading.observedColumns) ↔
        columnId ∉ (reportsFrom 0 lines).map (·.1) := by
      rw [List.mem_filter, schema, decide_eq_true_eq, listed]
      exact and_iff_right leaf
    obtain ⟨laterSchema, laterPresent, laterShows⟩ :=
      mergeDefaults_shows other stats.schema exact ((schema ▸ distinct).filter _) schema read
    refine ⟨laterSchema, ?_, ?_⟩
    · have joined : payloadMerges stats.schema lines columnId = columnReports columnId (reportsFrom 0 lines) ++
          if columnId ∈ reading.stats.schema.leafColumnIds.filter (· ∉ reading.observedColumns) then
            [defaultMerge stats.schema columnId] else [] := by
        simp only [payloadMerges, columnReports, counted, true_and, ids]
      rw [joined, ColumnView.mergeAll, List.foldl_append]
      exact laterShows
    · rw [mergeMissingInlineDefaults, laterPresent, present, ids]
      simp only [counted, true_and, or_assoc]
  · rw [count, if_neg counted] at reads
    obtain rfl := Except.ok.inj reads
    refine ⟨schema, ?_, ?_⟩
    · have joined : payloadMerges stats.schema lines columnId = columnReports columnId (reportsFrom 0 lines) := by
        simp [payloadMerges, columnReports, counted]
      rw [joined]
      exact read
    · rw [present]
      simp [counted]

end GlobalTableStats

end DucklakeCatalog
