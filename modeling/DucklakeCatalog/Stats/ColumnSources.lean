import DucklakeCatalog.Stats.ColumnViews

/-! The statistics rendered for a column, in terms of its file rows and inline payloads. -/
namespace DucklakeCatalog

open KeyedStore ScalarOrder

def ColumnView.mergeFiles (view : ColumnView) (scalarType : CatalogScalarType) (rows : List FileColumnStatsRow) :
    ColumnView := rows.foldl (·.mergeFile scalarType ·) view

/-- Rows of the column that belong to one of the files. -/
def liveColumnRows (files : List GlobalStatsFileRow) (rows : List FileColumnStatsRow) (columnId : ColumnId) :
    List FileColumnStatsRow :=
  rows.filter fun row => decide (row.dataFileId ∈ files.map (·.dataFileId)) && decide (row.columnId = columnId)

/-- A file without a row for the column. -/
def ColumnUncovered (files : List GlobalStatsFileRow) (rows : List FileColumnStatsRow) (columnId : ColumnId) : Prop :=
  ∃ file ∈ files, ∀ row ∈ rows, row.dataFileId = file.dataFileId → row.columnId ≠ columnId

namespace ColumnView

theorem mergeAll_containsNull (view : ColumnView) (scalarType : CatalogScalarType) (merges : List InlineStatsMerge) :
    (view.mergeAll scalarType merges).containsNull =
      (view.containsNull || merges.any fun inline => inline.hasContainsNull && inline.containsNull) := by
  induction merges generalizing view with
  | nil => simp [mergeAll]
  | cons first rest ih =>
    rw [mergeAll, List.foldl_cons, ← mergeAll, ih]
    simp [mergeInline, Bool.or_assoc]

theorem mergeAll_extrema (view : ColumnView) (scalarType : CatalogScalarType) (merges : List InlineStatsMerge) :
    (view.mergeAll scalarType merges).extrema = view.extrema.run (merges.map (inlineEvidence scalarType)) := by
  induction merges generalizing view with
  | nil => rfl
  | cons first rest ih => exact ih _

theorem mergeFiles_containsNull (view : ColumnView) (scalarType : CatalogScalarType) (rows : List FileColumnStatsRow) :
    (view.mergeFiles scalarType rows).containsNull =
      (view.containsNull || rows.any fun row => decide (0 < row.nullCount)) := by
  induction rows generalizing view with
  | nil => simp [mergeFiles]
  | cons first rest ih =>
    rw [mergeFiles, List.foldl_cons, ← mergeFiles, ih]
    simp [mergeFile, Bool.or_assoc]

theorem mergeFiles_extrema (view : ColumnView) (scalarType : CatalogScalarType) (rows : List FileColumnStatsRow) :
    (view.mergeFiles scalarType rows).extrema = view.extrema.run (rows.map (fileEvidence scalarType)) := by
  induction rows generalizing view with
  | nil => rfl
  | cons first rest ih => exact ih _

end ColumnView

namespace GlobalTableStats

/-! ## Files -/

theorem accumulateFiles_reads (stats : GlobalTableStats) (files : List GlobalStatsFileRow) :
    let read := files.foldl accumulateFile stats
    read.schema = stats.schema ∧ read.columns = stats.columns ∧ read.fileColumns = stats.fileColumns ∧
      read.missingFileColumns = stats.missingFileColumns ∧
      ∀ file, file ∈ read.liveFiles ↔ file ∈ stats.liveFiles ∨ file ∈ files.map (·.dataFileId) := by
  induction files generalizing stats with
  | nil => simp
  | cons first rest ih =>
    obtain ⟨schema, columns, fileColumns, missing, live⟩ := ih (stats.accumulateFile first)
    refine ⟨schema, columns, fileColumns, missing, ?_⟩
    intro file
    rw [List.foldl_cons, live]
    simp [accumulateFile, List.mem_insert_iff, or_assoc, or_left_comm]

section

variable (other : OtherScalarOrder) (mergeGlobalExtraStats : String → String → String)

/-- The columns noted for a file. -/
def noted (stats : GlobalTableStats) (file : DataFileId) : List ColumnId := (stats.fileColumns.get? file).getD []

theorem accumulateRow_reads (stats : GlobalTableStats) (row : FileColumnStatsRow) :
    (stats.accumulateFileColumnStatsRef other mergeGlobalExtraStats row).schema = stats.schema ∧
      (stats.accumulateFileColumnStatsRef other mergeGlobalExtraStats row).missingFileColumns =
        stats.missingFileColumns ∧
      (stats.accumulateFileColumnStatsRef other mergeGlobalExtraStats row).liveFiles = stats.liveFiles ∧
      (∀ file columnId, columnId ∈ (stats.accumulateFileColumnStatsRef other mergeGlobalExtraStats row).noted file ↔
        columnId ∈ stats.noted file ∨
          row.dataFileId ∈ stats.liveFiles ∧ row.dataFileId = file ∧ row.columnId = columnId) ∧
      ∀ columnId, ((stats.accumulateFileColumnStatsRef other mergeGlobalExtraStats row).columns.get? columnId).isSome ↔
        (stats.columns.get? columnId).isSome ∨ row.dataFileId ∈ stats.liveFiles ∧ row.columnId = columnId := by
  by_cases live : row.dataFileId ∈ stats.liveFiles
  · refine ⟨by simp [accumulateFileColumnStatsRef, live, updateColumn],
      by simp [accumulateFileColumnStatsRef, live, updateColumn],
      by simp [accumulateFileColumnStatsRef, live, updateColumn], ?_, ?_⟩
    · intro file columnId
      simp only [accumulateFileColumnStatsRef, live, not_true, if_false, noted, updateColumn, OrderedMap.get?_insert,
        true_and]
      by_cases same : file = row.dataFileId
      · subst same
        simp [List.mem_insert_iff, or_comm, eq_comm]
      · simp [same, Ne.symm same]
    · intro columnId
      simp only [accumulateFileColumnStatsRef, live, not_true, if_false, isSome_updateColumn, true_and]
  · simp [accumulateFileColumnStatsRef, live]

variable {stats : GlobalTableStats} {columnId : ColumnId}

theorem accumulateRow_shows {view : ColumnView}
    (exact : (stats.schema.scalarType columnId).isExact = true) (shows : stats.Shows columnId view)
    (row : FileColumnStatsRow) :
    (stats.accumulateFileColumnStatsRef other mergeGlobalExtraStats row).Shows columnId
      (view.mergeFiles (stats.schema.scalarType columnId)
        (if row.dataFileId ∈ stats.liveFiles ∧ row.columnId = columnId then [row] else [])) := by
  by_cases live : row.dataFileId ∈ stats.liveFiles
  · let columns := (stats.fileColumns.get? row.dataFileId).getD []
    let noted : GlobalTableStats :=
      { stats with fileColumns := stats.fileColumns.insert row.dataFileId (columns.insert row.columnId) }
    have starts : noted.Shows columnId view := shows.of_same rfl rfl
    have merged := @Shows.mergeFile noted columnId view exact other mergeGlobalExtraStats starts row
    have step : stats.accumulateFileColumnStatsRef other mergeGlobalExtraStats row =
        noted.updateColumn row.columnId fun column => column.mergeFile other mergeGlobalExtraStats row :=
      if_neg (not_not.mpr live)
    rw [step]
    by_cases same : row.columnId = columnId
    · rw [if_pos same] at merged
      rw [if_pos ⟨live, same⟩]
      exact merged
    · rw [if_neg same] at merged
      rw [if_neg fun taken => same taken.2]
      exact merged
  · simpa [accumulateFileColumnStatsRef, live, ColumnView.mergeFiles] using shows

theorem accumulateRows_reads (stats : GlobalTableStats) (rows : List FileColumnStatsRow) :
    let read := rows.foldl (accumulateFileColumnStatsRef other mergeGlobalExtraStats) stats
    read.schema = stats.schema ∧ read.missingFileColumns = stats.missingFileColumns ∧
      read.liveFiles = stats.liveFiles ∧
      (∀ file columnId, columnId ∈ read.noted file ↔ columnId ∈ stats.noted file ∨
        ∃ row ∈ rows, row.dataFileId ∈ stats.liveFiles ∧ row.dataFileId = file ∧ row.columnId = columnId) ∧
      ∀ columnId, (read.columns.get? columnId).isSome ↔ (stats.columns.get? columnId).isSome ∨
        ∃ row ∈ rows, row.dataFileId ∈ stats.liveFiles ∧ row.columnId = columnId := by
  induction rows generalizing stats with
  | nil => simp
  | cons row rest ih =>
    obtain ⟨schema, missing, live, columns, present⟩ := accumulateRow_reads other mergeGlobalExtraStats stats row
    obtain ⟨laterSchema, laterMissing, laterLive, laterColumns, laterPresent⟩ :=
      ih (stats.accumulateFileColumnStatsRef other mergeGlobalExtraStats row)
    refine ⟨laterSchema.trans schema, laterMissing.trans missing, laterLive.trans live, ?_, ?_⟩
    · intro file columnId
      rw [List.foldl_cons, laterColumns, columns, live]
      simp only [List.mem_cons, exists_eq_or_imp, or_assoc]
    · intro columnId
      rw [List.foldl_cons, laterPresent, present, live]
      simp only [List.mem_cons, exists_eq_or_imp, or_assoc]

theorem accumulateRows_shows {view : ColumnView}
    (exact : (stats.schema.scalarType columnId).isExact = true) (shows : stats.Shows columnId view)
    (rows : List FileColumnStatsRow) :
    (rows.foldl (accumulateFileColumnStatsRef other mergeGlobalExtraStats) stats).Shows columnId
      (view.mergeFiles (stats.schema.scalarType columnId)
        (rows.filter fun row => decide (row.dataFileId ∈ stats.liveFiles) && decide (row.columnId = columnId))) := by
  induction rows generalizing stats view with
  | nil => exact shows
  | cons row rest ih =>
    obtain ⟨schema, _, live, _⟩ := accumulateRow_reads other mergeGlobalExtraStats stats row
    have later := ih (by rwa [schema]) (accumulateRow_shows other mergeGlobalExtraStats exact shows row)
    rw [schema, live] at later
    rw [List.foldl_cons]
    by_cases taken : row.dataFileId ∈ stats.liveFiles ∧ row.columnId = columnId
    · simpa [taken, ColumnView.mergeFiles] using later
    · rw [if_neg taken] at later
      have skipped : (decide (row.dataFileId ∈ stats.liveFiles) && decide (row.columnId = columnId)) = false := by
        simpa using taken
      rw [List.filter_cons, skipped]
      exact later

/-! ## Payloads -/

theorem accumulateLines_keeps_files (reading : InlineReading) (lines : List InlineStatsLine) :
    let read := (lines.foldl (InlineReading.accumulateLine other mergeGlobalExtraStats) reading).stats
    read.schema = reading.stats.schema ∧ read.liveFiles = reading.stats.liveFiles ∧
      read.fileColumns = reading.stats.fileColumns ∧ read.missingFileColumns = reading.stats.missingFileColumns := by
  induction lines generalizing reading with
  | nil => exact ⟨rfl, rfl, rfl, rfl⟩
  | cons line rest ih =>
    obtain ⟨schema, live, columns, missing⟩ := ih (reading.accumulateLine other mergeGlobalExtraStats line)
    rw [List.foldl_cons]
    refine ⟨schema.trans ?_, live.trans ?_, columns.trans ?_, missing.trans ?_⟩ <;> cases line <;> rfl

theorem mergeMissingInlineDefaults_keeps_files (stats : GlobalTableStats) (observed : List ColumnId) :
    let read := stats.mergeMissingInlineDefaults other observed
    read.schema = stats.schema ∧ read.liveFiles = stats.liveFiles ∧ read.fileColumns = stats.fileColumns ∧
      read.missingFileColumns = stats.missingFileColumns := by
  have frame : ∀ {β : Type} (view : GlobalTableStats → β),
      (∀ (stats : GlobalTableStats) columnId update, view (stats.updateColumn columnId update) = view stats) →
      view (stats.mergeMissingInlineDefaults other observed) = view stats := by
    intro β view kept
    refine foldl_view view ?_ _ _
    intro stats columnId
    exact kept stats columnId _
  exact ⟨frame (·.schema) fun _ _ _ => rfl, frame (·.liveFiles) fun _ _ _ => rfl,
    frame (·.fileColumns) fun _ _ _ => rfl, frame (·.missingFileColumns) fun _ _ _ => rfl⟩

theorem accumulateInlinePayload_keeps_files {next : GlobalTableStats} {payload : List (List String)}
    (reads : stats.accumulateInlinePayload other mergeGlobalExtraStats payload = .ok next) :
    next.schema = stats.schema ∧ next.liveFiles = stats.liveFiles ∧ next.fileColumns = stats.fileColumns ∧
      next.missingFileColumns = stats.missingFileColumns := by
  obtain ⟨lines, _, reads⟩ := bind_eq_ok.mp reads
  obtain ⟨schema, live, columns, missing⟩ := accumulateLines_keeps_files other mergeGlobalExtraStats { stats } lines
  dsimp only at reads
  split at reads
  · obtain rfl := Except.ok.inj reads
    obtain ⟨laterSchema, laterLive, laterColumns, laterMissing⟩ := mergeMissingInlineDefaults_keeps_files other
      (lines.foldl (InlineReading.accumulateLine other mergeGlobalExtraStats) { stats }).stats
      (lines.foldl (InlineReading.accumulateLine other mergeGlobalExtraStats) { stats }).observedColumns
    exact ⟨laterSchema.trans schema, laterLive.trans live, laterColumns.trans columns, laterMissing.trans missing⟩
  · obtain rfl := Except.ok.inj reads
    exact ⟨schema, live, columns, missing⟩

/-- A payload whose lines can be read is accepted. -/
theorem accumulateInlinePayload_ok (stats : GlobalTableStats) {payload : List (List String)}
    {lines : List InlineStatsLine} (decoded : payload.mapM parseInlineStatsLine = .ok lines) :
    ∃ next, stats.accumulateInlinePayload other mergeGlobalExtraStats payload = .ok next := by
  simp only [accumulateInlinePayload, decoded, bind, Except.bind]
  split <;> exact ⟨_, rfl⟩

/-- A payload reports on the column, or leaves it to its default. -/
def TouchesColumn (lines : List InlineStatsLine) (columnId : ColumnId) : Prop :=
  columnId ∈ lines.filterMap (·.columnId?) ∨
    0 < recordCountAfter 0 lines ∧ columnId ∉ (reportsFrom 0 lines).map (·.1)

/-- Readable payloads, one after another. -/
theorem accumulatePayloads (distinct : stats.schema.leafColumnIds.Nodup)
    (exact : ∀ columnId ∈ stats.schema.leafColumnIds, (stats.schema.scalarType columnId).isExact = true)
    {viewOf : ColumnId → ColumnView} (shows : ∀ columnId ∈ stats.schema.leafColumnIds, stats.Shows columnId (viewOf columnId))
    {α : Type} (payloadOf : α → List (List String)) (linesOf : α → List InlineStatsLine) {sources : List α}
    (decoded : ∀ source ∈ sources, (payloadOf source).mapM parseInlineStatsLine = .ok (linesOf source)) :
    ∃ last, (sources.map payloadOf).foldlM (accumulateInlinePayload other mergeGlobalExtraStats) stats = .ok last ∧
      (last.schema = stats.schema ∧ last.liveFiles = stats.liveFiles ∧ last.fileColumns = stats.fileColumns ∧
        last.missingFileColumns = stats.missingFileColumns) ∧
      ∀ columnId ∈ stats.schema.leafColumnIds,
        last.Shows columnId ((viewOf columnId).mergeAll (stats.schema.scalarType columnId)
          (sources.flatMap fun source => payloadMerges stats.schema (linesOf source) columnId)) ∧
        ((last.columns.get? columnId).isSome ↔ (stats.columns.get? columnId).isSome ∨
          ∃ source ∈ sources, TouchesColumn (linesOf source) columnId) := by
  induction sources generalizing stats viewOf with
  | nil => exact ⟨stats, rfl, ⟨rfl, rfl, rfl, rfl⟩, fun columnId leaf => ⟨shows columnId leaf, by simp⟩⟩
  | cons source rest ih =>
    have here := decoded source List.mem_cons_self
    obtain ⟨next, reads⟩ := accumulateInlinePayload_ok other mergeGlobalExtraStats stats here
    obtain ⟨schema, live, fileColumns, missing⟩ := accumulateInlinePayload_keeps_files other mergeGlobalExtraStats reads
    have step : ∀ columnId ∈ stats.schema.leafColumnIds, _ := fun columnId leaf =>
      accumulateInlinePayload_shows other mergeGlobalExtraStats (exact columnId leaf) distinct leaf
        (shows columnId leaf) here reads
    obtain ⟨last, folds, ⟨laterSchema, laterLive, laterColumns, laterMissing⟩, later⟩ :=
      ih (by rwa [schema]) (by rwa [schema]) (by rw [schema]; exact fun columnId leaf => (step columnId leaf).2.1)
        fun source member => decoded source (List.mem_cons_of_mem _ member)
    rw [schema] at later
    refine ⟨last, ?_, ⟨laterSchema.trans schema, laterLive.trans live, laterColumns.trans fileColumns,
      laterMissing.trans missing⟩, ?_⟩
    · rw [List.map_cons, List.foldlM_cons, reads]
      exact folds
    · intro columnId leaf
      obtain ⟨laterShows, laterPresent⟩ := later columnId leaf
      constructor
      · simpa only [List.flatMap_cons, ColumnView.mergeAll, List.foldl_append] using laterShows
      · rw [laterPresent, (step columnId leaf).2.2]
        simp only [List.mem_cons, exists_eq_or_imp, or_assoc, TouchesColumn]

/-! ## Rendering -/

theorem finishFileCoverage_reads (stats : GlobalTableStats) (start : stats.missingFileColumns = []) :
    stats.finishFileCoverage.schema = stats.schema ∧ stats.finishFileCoverage.columns = stats.columns ∧
      ∀ columnId, columnId ∈ stats.finishFileCoverage.missingFileColumns ↔
        columnId ∈ stats.schema.leafColumnIds ∧ ∃ file ∈ stats.liveFiles, columnId ∉ stats.noted file := by
  by_cases none : stats.liveFiles = []
  · simp [finishFileCoverage, none, start]
  · have uncovered : ∀ file columnId, ((stats.fileColumns.get? file).all fun columns => decide (columnId ∉ columns)) = true ↔
        columnId ∉ stats.noted file := by
      intro file columnId
      simp only [noted]
      cases stats.fileColumns.get? file <;> simp
    refine ⟨by simp [finishFileCoverage, none], by simp [finishFileCoverage, none], ?_⟩
    intro columnId
    simp only [finishFileCoverage, if_neg none, List.mem_filter, List.any_eq_true, uncovered]

theorem mem_appendTo (start : stats.missingFileColumns = []) {column : GlobalColumnStats} :
    (columnId, column) ∈ stats.appendTo.columns ↔ columnId ∈ stats.schema.leafColumnIds ∧
      ∃ kept, stats.columns.get? columnId = some kept ∧
        ((∃ file ∈ stats.liveFiles, columnId ∉ stats.noted file) ∧ column = kept.markUnknown ∨
          (∀ file ∈ stats.liveFiles, columnId ∈ stats.noted file) ∧ column = kept) := by
  obtain ⟨schema, columns, missing⟩ := finishFileCoverage_reads stats start
  simp only [appendTo, List.mem_filter, List.mem_map, schema, columns, missing, decide_eq_true_eq]
  constructor
  · rintro ⟨⟨⟨id, kept⟩, stored, same⟩, leaf⟩
    have found := (OrderedMap.get?_eq_some_iff _).mpr stored
    split at same
    · rename_i uncovered
      obtain ⟨rfl, rfl⟩ := Prod.mk.inj same
      exact ⟨leaf, kept, found, Or.inl ⟨uncovered.2, rfl⟩⟩
    · rename_i covered
      obtain ⟨rfl, rfl⟩ := Prod.mk.inj same
      refine ⟨leaf, kept, found, Or.inr ⟨?_, rfl⟩⟩
      intro file live
      by_contra unnoted
      exact covered ⟨leaf, file, live, unnoted⟩
  · rintro ⟨leaf, kept, found, ⟨uncovered, rfl⟩ | ⟨covered, rfl⟩⟩
    · refine ⟨⟨(columnId, kept), (OrderedMap.get?_eq_some_iff _).mp found, ?_⟩, leaf⟩
      rw [if_pos ⟨leaf, uncovered⟩]
    · refine ⟨⟨(columnId, column), (OrderedMap.get?_eq_some_iff _).mp found, ?_⟩, leaf⟩
      rw [if_neg]
      rintro ⟨_, file, live, unnoted⟩
      exact unnoted (covered file live)

/-- What all sources together leave of a column. -/
def sourcesView (schema : GlobalStatsSchema) (files : List GlobalStatsFileRow) (rows : List FileColumnStatsRow)
    (payloads : List (List InlineStatsLine)) (columnId : ColumnId) : ColumnView :=
  (ColumnView.unseen.mergeFiles (schema.scalarType columnId) (liveColumnRows files rows columnId)).mergeAll
    (schema.scalarType columnId) (payloads.flatMap fun lines => payloadMerges schema lines columnId)

/-- Readable payloads are rendered, and each line says what its sources leave. -/
theorem render_columns (table : TableRow) (allocatedNextRowId : Nat) (files : List GlobalStatsFileRow)
    (rows : List FileColumnStatsRow)
    (exact : ∀ columnId ∈ leafColumnIds table, ((GlobalStatsSchema.ofTable table).scalarType columnId).isExact = true)
    {α : Type} (payloadOf : α → List (List String)) (linesOf : α → List InlineStatsLine) {sources : List α}
    (decoded : ∀ source ∈ sources, (payloadOf source).mapM parseInlineStatsLine = .ok (linesOf source)) :
    ∃ rendered, render other mergeGlobalExtraStats table allocatedNextRowId files rows (sources.map payloadOf) =
        .ok rendered ∧
      (∀ columnId column, (columnId, column) ∈ rendered.columns → columnId ∈ leafColumnIds table ∧
        (ColumnUncovered files rows columnId ∧
            column.hasMin = false ∧ column.hasMax = false ∧ column.containsNull = true ∨
          ¬ ColumnUncovered files rows columnId ∧
            column.scalarType = (GlobalStatsSchema.ofTable table).scalarType columnId ∧
            column.containsNull =
              (sourcesView (GlobalStatsSchema.ofTable table) files rows (sources.map linesOf) columnId).containsNull ∧
            column.Tracks
              (sourcesView (GlobalStatsSchema.ofTable table) files rows (sources.map linesOf) columnId).extrema)) ∧
      ∀ columnId ∈ leafColumnIds table, (∃ column, (columnId, column) ∈ rendered.columns) ↔
        liveColumnRows files rows columnId ≠ [] ∨ ∃ source ∈ sources, TouchesColumn (linesOf source) columnId := by
  obtain ⟨liveSchema, liveColumns, liveNoted, liveMissing, live⟩ :=
    accumulateFiles_reads (new table allocatedNextRowId) files
  have opens : ∀ columnId, (files.foldl accumulateFile (new table allocatedNextRowId)).Shows columnId ColumnView.unseen := by
    intro columnId
    exact (new_shows table allocatedNextRowId columnId).of_same liveSchema (by rw [liveColumns])
  simp only [render]
  generalize files.foldl accumulateFile (new table allocatedNextRowId) = opened
    at liveSchema liveColumns liveNoted liveMissing live opens
  obtain ⟨filedSchema, filedMissing, filedLive, filedNoted, filedPresent⟩ :=
    accumulateRows_reads other mergeGlobalExtraStats opened rows
  have filed : ∀ columnId ∈ opened.schema.leafColumnIds, _ := fun columnId leaf =>
    accumulateRows_shows other mergeGlobalExtraStats (by rw [liveSchema] at leaf ⊢; exact exact columnId leaf)
      (opens columnId) rows
  generalize rows.foldl (accumulateFileColumnStatsRef other mergeGlobalExtraStats) opened = read
    at filedSchema filedMissing filedLive filedNoted filedPresent filed
  have sameSchema : read.schema = GlobalStatsSchema.ofTable table := filedSchema.trans liveSchema
  have fileListed : ∀ file, file ∈ opened.liveFiles ↔ file ∈ files.map (·.dataFileId) := fun file => by
    simpa [new] using live file
  have rowsTaken : ∀ columnId, (rows.filter fun row =>
      decide (row.dataFileId ∈ opened.liveFiles) && decide (row.columnId = columnId)) =
        liveColumnRows files rows columnId := by
    intro columnId
    simp only [liveColumnRows, fileListed]
  obtain ⟨last, folds, ⟨lastSchema, lastLive, lastNoted, lastMissing⟩, columns⟩ :=
    accumulatePayloads other mergeGlobalExtraStats (by rw [sameSchema]; exact leafColumnIds_nodup table)
      (by rw [sameSchema]; exact exact) (by rw [filedSchema]; exact filed) payloadOf linesOf decoded
  have noMissing : last.missingFileColumns = [] := by
    rw [lastMissing, filedMissing, liveMissing]
    rfl
  have noted : ∀ file columnId, columnId ∈ last.noted file ↔
      ∃ row ∈ rows, row.dataFileId ∈ files.map (·.dataFileId) ∧ row.dataFileId = file ∧ row.columnId = columnId := by
    intro file columnId
    have same : last.noted file = read.noted file := by simp only [GlobalTableStats.noted, lastNoted]
    rw [same, filedNoted]
    simp only [fileListed]
    apply or_iff_right
    simp [GlobalTableStats.noted, liveNoted, new, OrderedMap.empty, OrderedMap.get?]
  have uncovered : ∀ columnId, (∃ file ∈ last.liveFiles, columnId ∉ last.noted file) ↔
      ColumnUncovered files rows columnId := by
    intro columnId
    rw [lastLive, filedLive]
    simp only [fileListed, List.mem_map, noted, ColumnUncovered]
    constructor
    · rintro ⟨_, ⟨file, listed, rfl⟩, missed⟩
      exact ⟨file, listed, fun row taken same column => missed ⟨row, taken, ⟨file, listed, same.symm⟩, same, column⟩⟩
    · rintro ⟨file, listed, missed⟩
      refine ⟨_, ⟨file, listed, rfl⟩, ?_⟩
      rintro ⟨row, taken, _, same, column⟩
      exact missed row taken same column
  refine ⟨last.appendTo, ?_, ?_, ?_⟩
  · rw [folds]
    rfl
  · intro columnId column rendered
    obtain ⟨leaf, kept, found, shown⟩ := (mem_appendTo noMissing).mp rendered
    rw [lastSchema, sameSchema] at leaf
    refine ⟨leaf, ?_⟩
    have same : last.statsForColumn columnId = kept := by simp only [statsForColumn, found, Option.getD_some]
    have shows : last.Shows columnId
        (sourcesView (GlobalStatsSchema.ofTable table) files rows (sources.map linesOf) columnId) := by
      have shown := (columns columnId (by rw [sameSchema]; exact leaf)).1
      rw [filedSchema, rowsTaken, liveSchema] at shown
      simp only [sourcesView, List.flatMap_map]
      exact shown
    rcases shown with ⟨missed, rfl⟩ | ⟨covered, rfl⟩
    · exact Or.inl ⟨(uncovered columnId).mp missed, rfl, rfl, rfl⟩
    · refine Or.inr ⟨?_, ?_, ?_, ?_⟩
      · rw [← uncovered]
        rintro ⟨file, listed, missed⟩
        exact missed (covered file listed)
      · rw [← same, shows.scalarType, lastSchema, sameSchema]
      · rw [← same, shows.containsNull]
      · rw [← same]
        exact shows.tracks
  · intro columnId leaf
    have stored : (∃ column, (columnId, column) ∈ last.appendTo.columns) ↔ (last.columns.get? columnId).isSome := by
      rw [Option.isSome_iff_exists]
      constructor
      · rintro ⟨column, rendered⟩
        obtain ⟨_, kept, found, _⟩ := (mem_appendTo noMissing).mp rendered
        exact ⟨kept, found⟩
      · rintro ⟨kept, found⟩
        have listed : columnId ∈ last.schema.leafColumnIds := by
          rw [lastSchema, sameSchema]
          exact leaf
        by_cases missed : ∃ file ∈ last.liveFiles, columnId ∉ last.noted file
        · exact ⟨_, (mem_appendTo noMissing).mpr ⟨listed, kept, found, Or.inl ⟨missed, rfl⟩⟩⟩
        · push Not at missed
          exact ⟨_, (mem_appendTo noMissing).mpr ⟨listed, kept, found, Or.inr ⟨missed, rfl⟩⟩⟩
    rw [stored, (columns columnId (by rw [sameSchema]; exact leaf)).2, filedPresent]
    apply or_congr_left
    have unseen : ¬ (opened.columns.get? columnId).isSome := by
      rw [liveColumns]
      simp [new, OrderedMap.empty, OrderedMap.get?]
    rw [or_iff_right unseen, ← rowsTaken, ne_eq, List.filter_eq_nil_iff]
    simp

end

end GlobalTableStats

end DucklakeCatalog
