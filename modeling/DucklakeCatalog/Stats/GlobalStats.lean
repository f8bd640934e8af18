import DucklakeCatalog.Stats.TypedScalar

/-! Statistics of a table over its data files and its inline payloads. -/
namespace DucklakeCatalog

open KeyedStore

structure GlobalStatsFileRow where
  dataFileId : DataFileId
  recordCount : Nat
  fileSizeBytes : Nat
  rowIdStart : Option Nat
  hasDeletions : Bool
  deriving DecidableEq, Repr

structure GlobalColumnStats where
  scalarType : CatalogScalarType := .unsupported
  hasContainsNull : Bool := false
  containsNull : Bool := false
  hasMin : Bool := false
  minValue : String := ""
  hasMax : Bool := false
  maxValue : String := ""
  hasExtraStats : Bool := false
  extraStats : String := ""
  invalidExtrema : Bool := false
  deriving DecidableEq, Repr

structure InlineStatsMerge where
  hasContainsNull : Bool
  containsNull : Bool
  hasNonNullValues : Bool
  minValue : Option String
  maxValue : Option String
  deriving DecidableEq, Repr

structure GlobalStatsSchema where
  leafColumnIds : List ColumnId
  columnTypes : OrderedMap ColumnId CatalogScalarType
  columnDefaults : OrderedMap ColumnId (Option String × Bool)

structure GlobalTableStats where
  tableId : TableId
  schema : GlobalStatsSchema
  fileColumns : OrderedMap DataFileId (List ColumnId) := OrderedMap.empty
  liveFiles : List DataFileId := []
  missingFileColumns : List ColumnId := []
  recordCount : Nat := 0
  nextRowId : Nat
  tableSizeBytes : Nat := 0
  columns : OrderedMap ColumnId GlobalColumnStats := OrderedMap.empty

/-! ## One column -/

section

variable (other : OtherScalarOrder) (mergeGlobalExtraStats : String → String → String)

def typedExtremaAreInvalid (scalarType : CatalogScalarType) (valueCount : Option Nat) (nullCount : Nat)
    (minValue maxValue : Option String) : Bool :=
  let boundsOrdered :=
    match minValue, maxValue with
    | some minimum, some maximum =>
      (compareTypedScalars other scalarType minimum maximum).any fun ordering => ordering != .gt
    | none, none => true
    | _, _ => false
  let allValuesAreKnownNull := valueCount.any fun valueCount => decide (valueCount ≤ nullCount)
  let boundsAreMissing := minValue.isNone && maxValue.isNone
  !boundsOrdered || minValue.isSome != maxValue.isSome || (boundsAreMissing && !allValuesAreKnownNull) ||
    (allValuesAreKnownNull && !boundsAreMissing)

namespace GlobalColumnStats

def withType (scalarType : CatalogScalarType) : GlobalColumnStats := { scalarType }

def clearExtrema (stats : GlobalColumnStats) : GlobalColumnStats :=
  { stats with hasMin := false, minValue := "", hasMax := false, maxValue := "" }

def invalidateExtrema (stats : GlobalColumnStats) : GlobalColumnStats :=
  { stats.clearExtrema with invalidExtrema := true }

def lowerMin (stats : GlobalColumnStats) (minValue : String) : GlobalColumnStats :=
  if !stats.hasMin || compareTypedScalars other stats.scalarType minValue stats.minValue == some .lt then
    { stats with hasMin := true, minValue }
  else stats

def raiseMax (stats : GlobalColumnStats) (maxValue : String) : GlobalColumnStats :=
  if !stats.hasMax || compareTypedScalars other stats.scalarType maxValue stats.maxValue == some .gt then
    { stats with hasMax := true, maxValue }
  else stats

def mergeExtraStats (stats : GlobalColumnStats) (extraStats : String) : GlobalColumnStats :=
  if extraStats = "" then stats
  else { stats with hasExtraStats := true, extraStats := mergeGlobalExtraStats stats.extraStats extraStats }

def noteFileNulls (stats : GlobalColumnStats) (row : FileColumnStatsRow) : GlobalColumnStats :=
  { stats with hasContainsNull := true, containsNull := stats.containsNull || decide (0 < row.nullCount) }

def mergeFileExtrema (stats : GlobalColumnStats) (row : FileColumnStatsRow) : GlobalColumnStats :=
  if typedExtremaAreInvalid other stats.scalarType row.valueCount row.nullCount row.minValue row.maxValue then
    stats.invalidateExtrema
  else if stats.invalidExtrema then stats
  else
    let lowered := row.minValue.elim stats (stats.lowerMin other)
    row.maxValue.elim lowered (lowered.raiseMax other)

def mergeFile (stats : GlobalColumnStats) (row : FileColumnStatsRow) : GlobalColumnStats :=
  let merged := (stats.noteFileNulls row).mergeFileExtrema other row
  row.extraStats.elim merged (merged.mergeExtraStats mergeGlobalExtraStats)

def noteInlineNulls (stats : GlobalColumnStats) (inline : InlineStatsMerge) : GlobalColumnStats :=
  if inline.hasContainsNull then
    { stats with hasContainsNull := true, containsNull := stats.containsNull || inline.containsNull }
  else stats

def mergeInlineExtrema (stats : GlobalColumnStats) (inline : InlineStatsMerge) : GlobalColumnStats :=
  match inline.minValue, inline.maxValue with
  | some minValue, some maxValue =>
    let boundsAreInvalid :=
      (compareTypedScalars other stats.scalarType minValue maxValue).all fun ordering => ordering == .gt
    if stats.invalidExtrema then stats
    else if boundsAreInvalid then stats.invalidateExtrema
    else (stats.lowerMin other minValue).raiseMax other maxValue
  | none, none => if inline.hasNonNullValues then stats.invalidateExtrema else stats.clearExtrema
  | _, _ => stats.invalidateExtrema

def mergeInline (stats : GlobalColumnStats) (inline : InlineStatsMerge) : GlobalColumnStats :=
  (stats.noteInlineNulls inline).mergeInlineExtrema other inline

def markUnknown (stats : GlobalColumnStats) : GlobalColumnStats :=
  { stats.invalidateExtrema with hasContainsNull := true, containsNull := true }

end GlobalColumnStats

end

/-! ## Lines of an inline payload -/

def parseU64Digits (digits : List Char) : Except String Nat :=
  digits.foldlM (fun value digit =>
    if !digit.isDigit then .error "invalid digit found in string"
    else if u64Max < value * 10 + scalarDigit digit then .error "number too large to fit in target type"
    else .ok (value * 10 + scalarDigit digit)) 0

/-- `str::parse::<u64>` with the text of its error. -/
def parseU64Text (value : String) : Except String Nat :=
  match value.toList with
  | [] => .error "cannot parse integer from empty string"
  | ['+'] => .error "invalid digit found in string"
  | '+' :: digits => parseU64Digits digits
  | digits => parseU64Digits digits

def parseGlobalStatsU64 (value fieldName : String) : CatalogResult Nat :=
  (parseU64Text value).mapError fun error => .decode s!"invalid global stats {fieldName} '{value}': {error}"

def parseGlobalStatsBool (value fieldName : String) : CatalogResult Bool :=
  if value = "true" ∨ value = "1" then .ok true
  else if value = "false" ∨ value = "0" then .ok false
  else .error (.decode s!"invalid global stats {fieldName} '{value}'")

inductive InlineStatsLine where
  | tableStats (recordCount nextRowId : Nat)
  | aggregateStats (recordCount : Nat)
  | aggregateNextRowId (nextRowId : Nat)
  | columnStats (columnId : ColumnId) (hasContainsNull containsNull : Bool) (minValue maxValue : Option String)
  | aggregateColumnStats (columnId : ColumnId) (nonNullCount : Nat) (minValue maxValue : Option String)
  | columnExtraStats (columnId : ColumnId) (extraStats : String)
  | other
  deriving DecidableEq, Repr

def thenSome (present : Bool) (value : String) : Option String := if present then some value else none

/-- One line, given by its tab-separated fields. -/
def parseInlineStatsLine (fields : List String) : CatalogResult InlineStatsLine :=
  match fields with
  | ["inline_table_stats", recordCount, nextRowId] => do
    let recordCount ← parseGlobalStatsU64 recordCount "inline record count"
    return .tableStats recordCount (← parseGlobalStatsU64 nextRowId "inline next row id")
  | ["inline_aggregate_stats", recordCount] => do
    return .aggregateStats (← parseGlobalStatsU64 recordCount "inline aggregate record count")
  | ["inline_aggregate_next_row_id", nextRowId] => do
    return .aggregateNextRowId (← parseGlobalStatsU64 nextRowId "inline aggregate next row id")
  | ["inline_column_stats", columnId, hasContainsNull, containsNull, hasMin, minValue, hasMax, maxValue] => do
    let columnId ← parseGlobalStatsU64 columnId "inline column stats column id"
    let hasContainsNull ← parseGlobalStatsBool hasContainsNull "inline column stats has_contains_null"
    let containsNull ← parseGlobalStatsBool containsNull "inline column stats contains_null"
    let hasMin ← parseGlobalStatsBool hasMin "inline column stats has_min"
    let hasMax ← parseGlobalStatsBool hasMax "inline column stats has_max"
    return .columnStats columnId hasContainsNull containsNull (thenSome hasMin minValue) (thenSome hasMax maxValue)
  | ["inline_aggregate_column_stats", columnId, nonNullCount, hasMin, minValue, hasMax, maxValue] => do
    let columnId ← parseGlobalStatsU64 columnId "inline aggregate column stats column id"
    let nonNullCount ← parseGlobalStatsU64 nonNullCount "inline aggregate column stats non-null count"
    let hasMin ← parseGlobalStatsBool hasMin "inline aggregate column stats has_min"
    let hasMax ← parseGlobalStatsBool hasMax "inline aggregate column stats has_max"
    return .aggregateColumnStats columnId nonNullCount (thenSome hasMin minValue) (thenSome hasMax maxValue)
  | ["inline_column_extra_stats", columnId, extraStats] => do
    return .columnExtraStats (← parseGlobalStatsU64 columnId "inline column extra stats column id") extraStats
  | _ => return .other

/-! ## The table -/

/-- Columns no other column is nested in. -/
def leafColumnIds (table : TableRow) : List ColumnId :=
  let parentColumnIds := table.columns.filterMap (·.parentId)
  ((table.columns.filter fun column => column.columnId ∉ parentColumnIds).map (·.columnId)).dedup.insertionSort (· ≤ ·)

def GlobalStatsSchema.ofTable (table : TableRow) : GlobalStatsSchema where
  leafColumnIds := DucklakeCatalog.leafColumnIds table
  columnTypes := (table.columns.filter fun column => column.columnId ∈ DucklakeCatalog.leafColumnIds table).foldl
    (fun types column => types.insert column.columnId (normalizeCatalogScalarType column.columnType)) OrderedMap.empty
  columnDefaults := table.columns.foldl (fun defaults column =>
    defaults.insert column.columnId (column.initialDefault, column.parentId.isSome || column.createdWithTable))
    OrderedMap.empty

def GlobalStatsSchema.scalarType (schema : GlobalStatsSchema) (columnId : ColumnId) : CatalogScalarType :=
  (schema.columnTypes.get? columnId).getD .unsupported

/-- The initial default of a column, and whether it may not stand for its values. -/
def GlobalStatsSchema.columnDefault (schema : GlobalStatsSchema) (columnId : ColumnId) : Option String × Bool :=
  (schema.columnDefaults.get? columnId).getD (none, false)

namespace GlobalTableStats

def new (table : TableRow) (allocatedNextRowId : Nat) : GlobalTableStats :=
  { tableId := table.tableId, schema := GlobalStatsSchema.ofTable table, nextRowId := allocatedNextRowId }

def statsForColumn (stats : GlobalTableStats) (columnId : ColumnId) : GlobalColumnStats :=
  (stats.columns.get? columnId).getD (GlobalColumnStats.withType (stats.schema.scalarType columnId))

def updateColumn (stats : GlobalTableStats) (columnId : ColumnId) (update : GlobalColumnStats → GlobalColumnStats) :
    GlobalTableStats :=
  { stats with columns := stats.columns.insert columnId (update (stats.statsForColumn columnId)) }

def accumulateFile (stats : GlobalTableStats) (row : GlobalStatsFileRow) : GlobalTableStats :=
  { stats with
    liveFiles := stats.liveFiles.insert row.dataFileId
    recordCount := saturatingAdd stats.recordCount row.recordCount
    nextRowId :=
      match row.rowIdStart with
      | some rowIdStart => max stats.nextRowId (saturatingAdd rowIdStart row.recordCount)
      | none => saturatingAdd stats.nextRowId row.recordCount
    tableSizeBytes := saturatingAdd stats.tableSizeBytes row.fileSizeBytes }

section

variable (other : OtherScalarOrder) (mergeGlobalExtraStats : String → String → String)

def accumulateFileColumnStatsRef (stats : GlobalTableStats) (row : FileColumnStatsRow) : GlobalTableStats :=
  if row.dataFileId ∉ stats.liveFiles then stats
  else
    let columns := (stats.fileColumns.get? row.dataFileId).getD []
    let noted := { stats with fileColumns := stats.fileColumns.insert row.dataFileId (columns.insert row.columnId) }
    noted.updateColumn row.columnId fun column => column.mergeFile other mergeGlobalExtraStats row

/-- What the lines of a payload read so far have left. -/
structure InlineReading where
  stats : GlobalTableStats
  currentInlineRecordCount : Nat := 0
  observedColumns : List ColumnId := []

def InlineReading.mergeColumn (reading : InlineReading) (columnId : ColumnId) (inline : InlineStatsMerge) :
    InlineReading :=
  { reading with
    observedColumns := reading.observedColumns.insert columnId
    stats := reading.stats.updateColumn columnId fun column => column.mergeInline other inline }

def InlineReading.accumulateLine (reading : InlineReading) (line : InlineStatsLine) : InlineReading :=
  match line with
  | .tableStats recordCount nextRowId =>
    let counted := { reading.stats with
      recordCount := saturatingAdd reading.stats.recordCount recordCount
      nextRowId := max reading.stats.nextRowId nextRowId }
    { reading with currentInlineRecordCount := recordCount, stats := counted }
  | .aggregateStats recordCount =>
    let counted := { reading.stats with recordCount := saturatingAdd reading.stats.recordCount recordCount }
    { reading with currentInlineRecordCount := recordCount, stats := counted }
  | .aggregateNextRowId nextRowId =>
    { reading with stats := { reading.stats with nextRowId := max reading.stats.nextRowId nextRowId } }
  | .columnStats columnId hasContainsNull containsNull minValue maxValue =>
    reading.mergeColumn other columnId
      { hasContainsNull, containsNull, hasNonNullValues := hasContainsNull && !containsNull, minValue, maxValue }
  | .aggregateColumnStats columnId nonNullCount minValue maxValue =>
    reading.mergeColumn other columnId
      { hasContainsNull := true, containsNull := decide (nonNullCount < reading.currentInlineRecordCount)
        hasNonNullValues := decide (0 < nonNullCount), minValue, maxValue }
  | .columnExtraStats columnId extraStats =>
    { reading with
      stats := reading.stats.updateColumn columnId fun column =>
        column.mergeExtraStats mergeGlobalExtraStats extraStats }
  | .other => reading

def defaultMerge (schema : GlobalStatsSchema) (columnId : ColumnId) : InlineStatsMerge :=
  let (default, isUnknown) := schema.columnDefault columnId
  { hasContainsNull := true
    containsNull := isUnknown || default.isNone
    hasNonNullValues := isUnknown || default.isSome
    minValue := if isUnknown then none else default
    maxValue := if isUnknown then none else default }

def mergeMissingInlineDefaults (stats : GlobalTableStats) (observed : List ColumnId) : GlobalTableStats :=
  (stats.schema.leafColumnIds.filter (· ∉ observed)).foldl (fun stats columnId =>
    stats.updateColumn columnId fun column => column.mergeInline other (defaultMerge stats.schema columnId)) stats

def accumulateInlinePayload (stats : GlobalTableStats) (payload : List (List String)) :
    CatalogResult GlobalTableStats := do
  let lines ← payload.mapM parseInlineStatsLine
  let reading := lines.foldl (InlineReading.accumulateLine other mergeGlobalExtraStats) { stats }
  if 0 < reading.currentInlineRecordCount then
    return reading.stats.mergeMissingInlineDefaults other reading.observedColumns
  else return reading.stats

end

def finishFileCoverage (stats : GlobalTableStats) : GlobalTableStats :=
  if stats.liveFiles = [] then stats
  else
    { stats with
      missingFileColumns := stats.schema.leafColumnIds.filter fun column =>
        stats.liveFiles.any fun file => (stats.fileColumns.get? file).all fun columns => decide (column ∉ columns)
      liveFiles := []
      fileColumns := OrderedMap.empty }

/-- The line of the table and those of its columns. -/
structure Rendered where
  tableId : TableId
  recordCount : Nat
  nextRowId : Nat
  tableSizeBytes : Nat
  columns : List (ColumnId × GlobalColumnStats)
  deriving DecidableEq

def appendTo (stats : GlobalTableStats) : Rendered :=
  let finished := stats.finishFileCoverage
  { tableId := stats.tableId
    recordCount := stats.recordCount
    nextRowId := stats.nextRowId
    tableSizeBytes := stats.tableSizeBytes
    columns := (finished.columns.entries.map fun entry =>
        if entry.1 ∈ finished.missingFileColumns then (entry.1, entry.2.markUnknown) else entry).filter
      fun entry => decide (entry.1 ∈ finished.schema.leafColumnIds) }

/-- Files, their column rows and then the inline payloads, in this order. -/
def render (other : OtherScalarOrder) (mergeGlobalExtraStats : String → String → String) (table : TableRow)
    (allocatedNextRowId : Nat) (files : List GlobalStatsFileRow) (rows : List FileColumnStatsRow)
    (payloads : List (List (List String))) : CatalogResult Rendered := do
  let live := files.foldl accumulateFile (new table allocatedNextRowId)
  let filed := rows.foldl (accumulateFileColumnStatsRef other mergeGlobalExtraStats) live
  let stats ← payloads.foldlM (accumulateInlinePayload other mergeGlobalExtraStats) filed
  return stats.appendTo

end GlobalTableStats

end DucklakeCatalog
