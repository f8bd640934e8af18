import DucklakeCatalog.Stats.ColumnSources

/-! When the statistics rendered for a column bound its values, in whatever order its payloads arrive. -/
namespace DucklakeCatalog

open KeyedStore ScalarOrder

/-! ## Sources that tell the truth -/

/-- Values on the right side of the bounds, as far as the bounds can be read. -/
structure BoundsHold (scalarType : CatalogScalarType) (minValue maxValue : Option String)
    (values : List (Option String)) : Prop where
  minimum : ∀ bound low, minValue = some bound → scalarValue scalarType bound = some low →
    ∀ value, some value ∈ values → ∃ held ∈ scalarValue scalarType value, low ≤ held
  maximum : ∀ bound high, maxValue = some bound → scalarValue scalarType bound = some high →
    ∀ value, some value ∈ values → ∃ held ∈ scalarValue scalarType value, held ≤ high

/-- A row of file statistics against the values of its column in the file. -/
structure FileColumnStatsRow.Faithful (scalarType : CatalogScalarType) (row : FileColumnStatsRow)
    (values : List (Option String)) : Prop where
  nullCount : row.nullCount = values.countP (·.isNone)
  valueCount : ∀ valueCount, row.valueCount = some valueCount → valueCount = values.length
  bounds : BoundsHold scalarType row.minValue row.maxValue values

/-- An inline payload, as tab-separated fields, with the rows it summarises. -/
structure InlineSummary where
  payload : List (List String)
  recordCount : Nat
  values : ColumnId → List (Option String)

def InlineSummary.lines (summary : InlineSummary) : List InlineStatsLine :=
  (summary.payload.mapM parseInlineStatsLine).toOption.getD []

/-- What a line says is so; the writers of summaries always know whether a column holds nulls. -/
def InlineStatsLine.Faithful (schema : GlobalStatsSchema) (summary : InlineSummary) : InlineStatsLine → Prop
  | .tableStats recordCount _ | .aggregateStats recordCount => recordCount = summary.recordCount
  | .columnStats columnId hasContainsNull containsNull minValue maxValue =>
    hasContainsNull = true ∧ (containsNull = true ↔ none ∈ summary.values columnId) ∧
      BoundsHold (schema.scalarType columnId) minValue maxValue (summary.values columnId)
  | .aggregateColumnStats columnId nonNullCount minValue maxValue =>
    nonNullCount = (summary.values columnId).countP (·.isSome) ∧
      (summary.values columnId).length = summary.recordCount ∧
      BoundsHold (schema.scalarType columnId) minValue maxValue (summary.values columnId)
  | .aggregateNextRowId _ | .columnExtraStats _ _ | .other => True

structure InlineSummary.Faithful (schema : GlobalStatsSchema) (summary : InlineSummary) : Prop where
  decodes : summary.payload.mapM parseInlineStatsLine = .ok summary.lines
  lines : ∀ line ∈ summary.lines, line.Faithful schema summary
  counted : ∃ front count rest, summary.lines = front ++ count :: rest ∧ (∀ line ∈ front, line = .other) ∧
    count.recordCount? = some summary.recordCount
  once : (summary.lines.filterMap (·.merge? summary.recordCount)).map (·.1) |>.Nodup
  unlisted : ∀ columnId ∈ schema.leafColumnIds,
    columnId ∉ (summary.lines.filterMap (·.merge? summary.recordCount)).map (·.1) →
    ∀ value ∈ summary.values columnId, 0 < summary.recordCount ∧
      ((schema.columnDefault columnId).2 = true ∨ value = (schema.columnDefault columnId).1)

/-- A table with its sources, and the values the files hold. -/
structure GlobalStatsInput where
  table : TableRow
  allocatedNextRowId : Nat
  files : List GlobalStatsFileRow
  fileColumnStats : List FileColumnStatsRow
  fileValues : DataFileId → ColumnId → List (Option String)
  summaries : List InlineSummary

namespace GlobalStatsInput

def schema (input : GlobalStatsInput) : GlobalStatsSchema := GlobalStatsSchema.ofTable input.table

structure Faithful (input : GlobalStatsInput) : Prop where
  exact : ∀ columnId ∈ leafColumnIds input.table, (input.schema.scalarType columnId).isExact = true
  files : ∀ row ∈ input.fileColumnStats, row.dataFileId ∈ input.files.map (·.dataFileId) →
    row.Faithful (input.schema.scalarType row.columnId) (input.fileValues row.dataFileId row.columnId)
  summaries : ∀ summary ∈ input.summaries, summary.Faithful input.schema

/-- The column has this value in some file or payload. -/
def Holds (input : GlobalStatsInput) (columnId : ColumnId) (value : Option String) : Prop :=
  (∃ file ∈ input.files, value ∈ input.fileValues file.dataFileId columnId) ∨
    ∃ summary ∈ input.summaries, value ∈ summary.values columnId

section

variable (other : OtherScalarOrder) (mergeGlobalExtraStats : String → String → String)

def rendered (input : GlobalStatsInput) (summaries : List InlineSummary) : CatalogResult GlobalTableStats.Rendered :=
  GlobalTableStats.render other mergeGlobalExtraStats input.table input.allocatedNextRowId input.files
    input.fileColumnStats (summaries.map (·.payload))

/-- Bounds and nulls of a line hold of every value of its column. -/
structure LineSound (input : GlobalStatsInput) (columnId : ColumnId) (line : GlobalColumnStats) : Prop where
  minimum : line.hasMin = true → ∀ value, input.Holds columnId (some value) →
    ScalarLe (input.schema.scalarType columnId) line.minValue value
  maximum : line.hasMax = true → ∀ value, input.Holds columnId (some value) →
    ScalarLe (input.schema.scalarType columnId) value line.maxValue
  nulls : line.containsNull = false → ¬ input.Holds columnId none

structure SameBounds (scalarType : CatalogScalarType) (left right : GlobalColumnStats) : Prop where
  hasMin : left.hasMin = right.hasMin
  hasMax : left.hasMax = right.hasMax
  minimum : left.hasMin = true → scalarValue scalarType left.minValue = scalarValue scalarType right.minValue
  maximum : left.hasMax = true → scalarValue scalarType left.maxValue = scalarValue scalarType right.maxValue

/-- Every rendered line is sound, and says the same for the payloads in any other order. -/
def Sound (input : GlobalStatsInput) : Prop :=
  ∃ text, input.rendered other mergeGlobalExtraStats input.summaries = .ok text ∧
    ∀ columnId line, (columnId, line) ∈ text.columns → input.LineSound columnId line ∧
      ∀ reordered, input.summaries.Perm reordered →
        ∃ again, input.rendered other mergeGlobalExtraStats reordered = .ok again ∧
          ∃ same, (columnId, same) ∈ again.columns ∧ SameBounds (input.schema.scalarType columnId) line same

end

def summaryEvidence (input : GlobalStatsInput) (summaries : List InlineSummary) (columnId : ColumnId) :
    List (Evidence ScalarValue) :=
  summaries.flatMap fun summary =>
    (payloadMerges input.schema summary.lines columnId).map (inlineEvidence (input.schema.scalarType columnId))

/-- Nothing makes the bounds of the column unknowable, one payload clears them and another one gives some. -/
structure MixesEvidence (input : GlobalStatsInput) (columnId : ColumnId) : Prop where
  covered : ¬ ColumnUncovered input.files input.fileColumnStats columnId
  filesAccepted : ∀ row ∈ liveColumnRows input.files input.fileColumnStats columnId,
    fileEvidence (input.schema.scalarType columnId) row ≠ .refute
  summariesAccepted : .refute ∉ input.summaryEvidence input.summaries columnId
  forgets : .forget ∈ input.summaryEvidence input.summaries columnId
  bounds : ∃ low high, .bounds low high ∈ input.summaryEvidence input.summaries columnId

end GlobalStatsInput

/-! ## What faithful sources merge -/

/-- A merge tells of every null, and its bounds hold. -/
structure MergeFaithful (scalarType : CatalogScalarType) (inline : InlineStatsMerge) (values : List (Option String)) :
    Prop where
  nulls : none ∈ values → inline.hasContainsNull = true ∧ inline.containsNull = true
  bounds : BoundsHold scalarType inline.minValue inline.maxValue values

theorem reportsFrom_constant {recordCount : Nat} {lines : List InlineStatsLine}
    (constant : ∀ line ∈ lines, ∀ count, line.recordCount? = some count → count = recordCount) :
    reportsFrom recordCount lines = lines.filterMap (·.merge? recordCount) ∧
      recordCountAfter recordCount lines = recordCount := by
  induction lines with
  | nil => exact ⟨rfl, rfl⟩
  | cons line rest ih =>
    obtain ⟨reports, count⟩ := ih fun line member => constant line (List.mem_cons_of_mem _ member)
    have same : line.recordCount?.getD recordCount = recordCount := by
      cases given : line.recordCount? with
      | none => rfl
      | some count => exact constant line List.mem_cons_self count given
    constructor
    · rw [reportsFrom, same, reports, List.filterMap_cons]
      cases line.merge? recordCount <;> rfl
    · rw [recordCountAfter, List.foldl_cons, same]
      exact count

theorem filter_key_of_nodup {α β : Type} [DecidableEq α] {entries : List (α × β)}
    (distinct : (entries.map (·.1)).Nodup) {key : α} {value : β} (listed : (key, value) ∈ entries) :
    entries.filter (fun entry => entry.1 = key) = [(key, value)] := by
  induction entries with
  | nil => cases listed
  | cons first rest ih =>
    obtain ⟨fresh, distinct⟩ := List.nodup_cons.mp distinct
    rcases List.mem_cons.mp listed with rfl | later
    · have others : rest.filter (fun entry => entry.1 = key) = [] := by
        apply List.filter_eq_nil_iff.mpr
        intro entry member same
        exact fresh (List.mem_map.mpr ⟨entry, member, of_decide_eq_true same⟩)
      simp [others]
    · have different : first.1 ≠ key := by
        rintro rfl
        exact fresh (List.mem_map.mpr ⟨_, later, rfl⟩)
      simpa [different] using ih distinct later

variable {values : List (Option String)} {columnId : ColumnId} {value : String}

/-- The default of a column stands for the values of a payload that leaves the column out. -/
theorem defaultMerge_faithful (schema : GlobalStatsSchema) (columnId : ColumnId)
    (left : ∀ value ∈ values, (schema.columnDefault columnId).2 = true ∨ value = (schema.columnDefault columnId).1) :
    MergeFaithful (schema.scalarType columnId) (GlobalTableStats.defaultMerge schema columnId) values := by
  simp only [GlobalTableStats.defaultMerge]
  generalize schema.columnDefault columnId = given at left
  obtain ⟨default, isUnknown⟩ := given
  cases isUnknown with
  | true => exact ⟨fun _ => ⟨rfl, rfl⟩, ⟨by simp, by simp⟩⟩
  | false =>
    have constant : ∀ value ∈ values, value = default := fun value member => by simpa using left value member
    refine ⟨?_, ?_, ?_⟩
    · intro null
      simp [← constant none null]
    · intro bound low isDefault denotes value member
      have same : some value = some bound := (constant _ member).trans (by simpa using isDefault)
      obtain rfl := Option.some.inj same
      exact ⟨low, denotes, le_rfl⟩
    · intro bound high isDefault denotes value member
      have same : some value = some bound := (constant _ member).trans (by simpa using isDefault)
      obtain rfl := Option.some.inj same
      exact ⟨high, denotes, le_rfl⟩

variable {inline : InlineStatsMerge} {minValue maxValue : String}

theorem InlineStatsLine.Faithful.merge {schema : GlobalStatsSchema} {summary : InlineSummary} {line : InlineStatsLine}
    (faithful : line.Faithful schema summary) (merges : line.merge? summary.recordCount = some (columnId, inline)) :
    MergeFaithful (schema.scalarType columnId) inline (summary.values columnId) := by
  cases line with
  | columnStats id hasContainsNull containsNull minValue maxValue =>
    obtain ⟨rfl, rfl⟩ := Prod.mk.inj (Option.some.inj merges)
    obtain ⟨known, nulls, bounds⟩ := faithful
    exact ⟨fun null => ⟨known, nulls.mpr null⟩, bounds⟩
  | aggregateColumnStats id nonNullCount minValue maxValue =>
    obtain ⟨rfl, rfl⟩ := Prod.mk.inj (Option.some.inj merges)
    obtain ⟨counted, length, bounds⟩ := faithful
    refine ⟨?_, bounds⟩
    intro null
    refine ⟨rfl, decide_eq_true ?_⟩
    rw [counted, ← length]
    refine lt_of_le_of_ne List.countP_le_length ?_
    intro all
    cases List.countP_eq_length.mp all none null
  | tableStats _ _ | aggregateStats _ | aggregateNextRowId _ | columnExtraStats _ _ | other => cases merges

namespace InlineSummary.Faithful

variable {schema : GlobalStatsSchema} {summary : InlineSummary} (faithful : summary.Faithful schema)

include faithful

theorem reports : reportsFrom 0 summary.lines = summary.lines.filterMap (·.merge? summary.recordCount) ∧
    recordCountAfter 0 summary.lines = summary.recordCount := by
  obtain ⟨front, count, rest, split, silent, counts⟩ := faithful.counted
  have skipped : ∀ (front : List InlineStatsLine), (∀ line ∈ front, line = .other) → ∀ later recordCount,
      reportsFrom recordCount (front ++ later) = reportsFrom recordCount later ∧
        recordCountAfter recordCount (front ++ later) = recordCountAfter recordCount later ∧
        (front ++ later).filterMap (·.merge? summary.recordCount) = later.filterMap (·.merge? summary.recordCount) := by
    intro front silent later recordCount
    induction front with
    | nil => exact ⟨rfl, rfl, rfl⟩
    | cons line front ih =>
      obtain rfl := silent line List.mem_cons_self
      exact ih fun line member => silent line (List.mem_cons_of_mem _ member)
  have constant : ∀ line ∈ summary.lines, ∀ count, line.recordCount? = some count → count = summary.recordCount := by
    intro line member count given
    have truth := faithful.lines line member
    cases line <;> simp only [InlineStatsLine.recordCount?, Option.some.injEq, reduceCtorEq] at given
    · exact given.symm.trans truth
    · exact given.symm.trans truth
  obtain ⟨skipReports, skipCount, skipMerges⟩ := skipped front silent (count :: rest) 0
  obtain ⟨restReports, restCount⟩ := reportsFrom_constant fun line member =>
    constant line (by rw [split]; exact List.mem_append_right _ (List.mem_cons_of_mem _ member))
  have noMerge : ∀ recordCount, count.merge? recordCount = none := by
    intro recordCount
    cases count <;> simp only [InlineStatsLine.recordCount?, reduceCtorEq] at counts <;> rfl
  constructor
  · rw [split, skipReports, skipMerges, reportsFrom, noMerge, counts, List.filterMap_cons, noMerge]
    exact restReports
  · rw [split, skipCount, recordCountAfter, List.foldl_cons, counts]
    exact restCount

theorem merges (leaf : columnId ∈ schema.leafColumnIds) :
    payloadMerges schema summary.lines columnId = [] ∧ summary.values columnId = [] ∨
      ∃ inline, payloadMerges schema summary.lines columnId = [inline] ∧
        MergeFaithful (schema.scalarType columnId) inline (summary.values columnId) := by
  obtain ⟨reports, count⟩ := faithful.reports
  by_cases listed : columnId ∈ (summary.lines.filterMap (·.merge? summary.recordCount)).map (·.1)
  · obtain ⟨⟨_, inline⟩, member, rfl⟩ := List.mem_map.mp listed
    obtain ⟨line, written, merged⟩ := List.mem_filterMap.mp member
    refine Or.inr ⟨inline, ?_, (faithful.lines line written).merge merged⟩
    simp only [payloadMerges, reports, filter_key_of_nodup faithful.once member, List.map_cons, List.map_nil]
    rw [if_neg fun left => left.2 listed, List.append_nil]
  · have silent : (summary.lines.filterMap (·.merge? summary.recordCount)).filter (fun report => report.1 = columnId) = [] := by
      apply List.filter_eq_nil_iff.mpr
      intro report member same
      exact listed (List.mem_map.mpr ⟨report, member, of_decide_eq_true same⟩)
    have left := faithful.unlisted columnId leaf listed
    simp only [payloadMerges, reports, count, silent, List.map_nil, List.nil_append]
    by_cases empty : 0 < summary.recordCount
    · rw [if_pos ⟨empty, listed⟩]
      exact Or.inr ⟨_, rfl, defaultMerge_faithful schema columnId fun value member => (left value member).2⟩
    · rw [if_neg fun missing => empty missing.1]
      refine Or.inl ⟨rfl, List.eq_nil_iff_forall_not_mem.mpr ?_⟩
      intro value member
      exact empty (left value member).1

/-- A payload that merges something into a column has its line rendered. -/
theorem touches (merges : payloadMerges schema summary.lines columnId ≠ []) :
    GlobalTableStats.TouchesColumn summary.lines columnId := by
  obtain ⟨reports, count⟩ := faithful.reports
  by_cases listed : columnId ∈ (reportsFrom 0 summary.lines).map (·.1)
  · rw [reports] at listed
    obtain ⟨⟨_, inline⟩, member, rfl⟩ := List.mem_map.mp listed
    obtain ⟨line, written, merged⟩ := List.mem_filterMap.mp member
    refine Or.inl (List.mem_filterMap.mpr ⟨line, written, ?_⟩)
    cases line <;> simp only [InlineStatsLine.merge?, Option.some.injEq, Prod.mk.injEq, reduceCtorEq] at merged
    · exact congrArg some merged.1
    · exact congrArg some merged.1
  · refine Or.inr ⟨?_, listed⟩
    by_contra empty
    apply merges
    have silent : (reportsFrom 0 summary.lines).filter (fun report => report.1 = columnId) = [] := by
      apply List.filter_eq_nil_iff.mpr
      intro report member same
      exact listed (List.mem_map.mpr ⟨report, member, of_decide_eq_true same⟩)
    simp only [payloadMerges, silent, List.map_nil, List.nil_append, if_neg fun missing => empty (And.left missing)]

end InlineSummary.Faithful

/-! ## What the evidence says about the values -/

theorem boundsEvidence_eq_bounds {scalarType : CatalogScalarType} {low high : ScalarValue}
    (given : boundsEvidence scalarType minValue maxValue = .bounds low high) :
    scalarValue scalarType minValue = some low ∧ scalarValue scalarType maxValue = some high := by
  rcases boundsEvidence_cases scalarType minValue maxValue with refuted | ⟨_, isLow, _, isHigh, _, bounds⟩
  · rw [refuted] at given
    cases given
  · rw [bounds] at given
    obtain ⟨rfl, rfl⟩ := Evidence.bounds.inj given
    exact ⟨isLow, isHigh⟩

/-- Values that accepted evidence leaves room for lie within its bounds. -/
def Within (evidence : Evidence ScalarValue) (held : ScalarValue) : Prop :=
  ∃ low high, evidence = .bounds low high ∧ low ≤ held ∧ held ≤ high

theorem BoundsHold.within {scalarType : CatalogScalarType}
    (holds : BoundsHold scalarType (some minValue) (some maxValue) values)
    (accepted : boundsEvidence scalarType minValue maxValue ≠ .refute) (member : some value ∈ values) :
    ∃ held ∈ scalarValue scalarType value, Within (boundsEvidence scalarType minValue maxValue) held := by
  rcases boundsEvidence_cases scalarType minValue maxValue with refuted | ⟨low, isLow, high, isHigh, _, bounds⟩
  · exact absurd refuted accepted
  · obtain ⟨held, denotes, above⟩ := holds.minimum minValue low rfl isLow value member
    obtain ⟨same, denotesSame, below⟩ := holds.maximum maxValue high rfl isHigh value member
    obtain rfl := Option.some.inj ((Option.mem_def.mp denotes).symm.trans denotesSame)
    exact ⟨held, denotes, low, high, bounds, above, below⟩

theorem MergeFaithful.within {scalarType : CatalogScalarType} (faithful : MergeFaithful scalarType inline values)
    (accepted : inlineEvidence scalarType inline ≠ .refute) (remembered : inlineEvidence scalarType inline ≠ .forget)
    (member : some value ∈ values) :
    ∃ held ∈ scalarValue scalarType value, Within (inlineEvidence scalarType inline) held := by
  have bounds := faithful.bounds
  simp only [inlineEvidence] at accepted remembered ⊢
  cases lowest : inline.minValue with
  | none =>
    cases highest : inline.maxValue with
    | none =>
      rw [lowest, highest] at accepted remembered
      dsimp only at accepted remembered
      split at accepted
      · exact absurd rfl accepted
      · rename_i allNull
        rw [if_neg allNull] at remembered
        exact absurd rfl remembered
    | some maxValue => simp [lowest, highest] at accepted
  | some minValue =>
    cases highest : inline.maxValue with
    | none => simp [lowest, highest] at accepted
    | some maxValue =>
      rw [lowest, highest] at bounds accepted
      exact bounds.within accepted member

theorem FileColumnStatsRow.Faithful.within {scalarType : CatalogScalarType} {row : FileColumnStatsRow}
    (faithful : row.Faithful scalarType values)
    (accepted : fileEvidence scalarType row ≠ .refute) (member : some value ∈ values) :
    ∃ held ∈ scalarValue scalarType value, Within (fileEvidence scalarType row) held := by
  have bounds := faithful.bounds
  simp only [fileEvidence] at accepted ⊢
  have someValue : (row.valueCount.any fun valueCount => decide (valueCount ≤ row.nullCount)) = false := by
    cases counted : row.valueCount with
    | none => rfl
    | some valueCount =>
      rw [Option.any_some, faithful.valueCount valueCount counted, faithful.nullCount, decide_eq_false_iff_not, not_le]
      refine lt_of_le_of_ne List.countP_le_length ?_
      intro all
      cases List.countP_eq_length.mp all (some value) member
  cases lowest : row.minValue with
  | none =>
    cases highest : row.maxValue with
    | none => simp [lowest, highest, someValue] at accepted
    | some maxValue => simp [lowest, highest] at accepted
  | some minValue =>
    cases highest : row.maxValue with
    | none => simp [lowest, highest] at accepted
    | some maxValue =>
      rw [lowest, highest] at bounds accepted
      simp only [someValue, Bool.false_eq_true, if_false] at accepted ⊢
      exact bounds.within accepted member

theorem GlobalColumnStats.Tracks.sameBounds {left right : GlobalColumnStats} {extrema : Extrema ScalarValue}
    {scalarType : CatalogScalarType} (leftTracks : left.Tracks extrema) (rightTracks : right.Tracks extrema)
    (leftType : left.scalarType = scalarType) (rightType : right.scalarType = scalarType) :
    GlobalStatsInput.SameBounds scalarType left right := by
  match extrema with
  | .unknowable | .known none =>
    obtain ⟨_, leftMin, leftMax⟩ := leftTracks
    obtain ⟨_, rightMin, rightMax⟩ := rightTracks
    exact ⟨leftMin.trans rightMin.symm, leftMax.trans rightMax.symm, by simp [leftMin], by simp [leftMax]⟩
  | .known (some (low, high)) =>
    obtain ⟨_, leftHasMin, leftMin, leftHasMax, leftMax⟩ := leftTracks
    obtain ⟨_, rightHasMin, rightMin, rightHasMax, rightMax⟩ := rightTracks
    rw [leftType] at leftMin leftMax
    rw [rightType] at rightMin rightMax
    exact ⟨leftHasMin.trans rightHasMin.symm, leftHasMax.trans rightHasMax.symm,
      fun _ => leftMin.trans rightMin.symm, fun _ => leftMax.trans rightMax.symm⟩

namespace GlobalStatsInput

variable {input : GlobalStatsInput} (faithful : input.Faithful)

def fileEvidences (input : GlobalStatsInput) (columnId : ColumnId) : List (Evidence ScalarValue) :=
  (liveColumnRows input.files input.fileColumnStats columnId).map (fileEvidence (input.schema.scalarType columnId))

/-- Evidence of the files, then of the payloads. -/
def extremaAfter (input : GlobalStatsInput) (summaries : List InlineSummary) (columnId : ColumnId) :
    Extrema ScalarValue :=
  (Extrema.known none).run (input.fileEvidences columnId ++ input.summaryEvidence summaries columnId)

theorem summaryEvidence_perm {left right : List InlineSummary} (reordered : left.Perm right) (columnId : ColumnId) :
    (input.summaryEvidence left columnId).Perm (input.summaryEvidence right columnId) :=
  reordered.flatMap_right _

theorem remembered_fileEvidences (columnId : ColumnId) : .forget ∉ input.fileEvidences columnId := by
  intro forgets
  obtain ⟨row, _, same⟩ := List.mem_map.mp forgets
  exact fileEvidence_remembers _ row same

theorem sourcesView_extrema (summaries : List InlineSummary) (columnId : ColumnId) :
    (GlobalTableStats.sourcesView input.schema input.files input.fileColumnStats (summaries.map (·.lines)) columnId).extrema =
      input.extremaAfter summaries columnId := by
  rw [GlobalTableStats.sourcesView, ColumnView.mergeAll_extrema, ColumnView.mergeFiles_extrema, extremaAfter,
    Extrema.run_append]
  simp only [summaryEvidence, List.flatMap_map, List.map_flatMap]
  rfl

include faithful

variable {summaries : List InlineSummary}

/-- Faithful sources are rendered in any order, each line from the evidence of its column. -/
theorem rendered_lines (other : OtherScalarOrder) (mergeGlobalExtraStats : String → String → String)
    (reordered : input.summaries.Perm summaries) :
    ∃ text, input.rendered other mergeGlobalExtraStats summaries = .ok text ∧
      (∀ columnId line, (columnId, line) ∈ text.columns → columnId ∈ leafColumnIds input.table ∧
        (ColumnUncovered input.files input.fileColumnStats columnId ∧
            line.hasMin = false ∧ line.hasMax = false ∧ line.containsNull = true ∨
          ¬ ColumnUncovered input.files input.fileColumnStats columnId ∧
            line.scalarType = input.schema.scalarType columnId ∧
            line.containsNull = (GlobalTableStats.sourcesView input.schema input.files input.fileColumnStats
              (summaries.map (·.lines)) columnId).containsNull ∧
            line.Tracks (input.extremaAfter summaries columnId))) ∧
      ∀ columnId ∈ leafColumnIds input.table, (∃ line, (columnId, line) ∈ text.columns) ↔
        liveColumnRows input.files input.fileColumnStats columnId ≠ [] ∨
          ∃ summary ∈ input.summaries, GlobalTableStats.TouchesColumn summary.lines columnId := by
  obtain ⟨text, renders, lines, present⟩ := GlobalTableStats.render_columns other mergeGlobalExtraStats input.table
    input.allocatedNextRowId input.files input.fileColumnStats faithful.exact (·.payload) (·.lines)
    fun summary member => (faithful.summaries summary (reordered.mem_iff.mpr member)).decodes
  refine ⟨text, renders, ?_, ?_⟩
  · intro columnId line listed
    obtain ⟨leaf, shown⟩ := lines columnId line listed
    refine ⟨leaf, shown.imp id ?_⟩
    rintro ⟨covered, scalarType, nulls, tracks⟩
    rw [← sourcesView_extrema]
    exact ⟨covered, scalarType, nulls, tracks⟩
  · intro columnId leaf
    rw [present columnId leaf]
    simp only [reordered.mem_iff]

variable {evidence : Evidence ScalarValue}

/-- Each summary merges at most one thing into a column. -/
theorem summary_evidence {summary : InlineSummary} (member : summary ∈ input.summaries)
    (leaf : columnId ∈ leafColumnIds input.table)
    (given : evidence ∈ (payloadMerges input.schema summary.lines columnId).map
      (inlineEvidence (input.schema.scalarType columnId))) :
    (payloadMerges input.schema summary.lines columnId).map (inlineEvidence (input.schema.scalarType columnId)) =
      [evidence] := by
  rcases (faithful.summaries summary member).merges leaf with ⟨none, _⟩ | ⟨inline, one, _⟩
  · simp [none] at given
  · rw [one] at given ⊢
    obtain rfl := List.mem_singleton.mp given
    rfl

section

variable (leaf : columnId ∈ leafColumnIds input.table)

include leaf

/-- Every value of a covered column was reported by some row or payload. -/
theorem held_within
    (covered : ¬ ColumnUncovered input.files input.fileColumnStats columnId)
    (accepted : .refute ∉ input.fileEvidences columnId ++ input.summaryEvidence input.summaries columnId)
    (remembered : .forget ∉ input.summaryEvidence input.summaries columnId)
    (holds : input.Holds columnId (some value)) :
    ∃ held ∈ scalarValue (input.schema.scalarType columnId) value, ∃ low high, low ≤ held ∧ held ≤ high ∧
      .bounds low high ∈ input.fileEvidences columnId ++ input.summaryEvidence input.summaries columnId := by
  rcases holds with ⟨file, listed, member⟩ | ⟨summary, listed, member⟩
  · simp only [ColumnUncovered, not_exists, not_and, not_forall, not_not] at covered
    obtain ⟨row, stored, sameFile, rfl⟩ := covered file listed
    have live : row.dataFileId ∈ input.files.map (·.dataFileId) := by
      rw [sameFile]
      exact List.mem_map_of_mem listed
    have taken : row ∈ liveColumnRows input.files input.fileColumnStats row.columnId :=
      List.mem_filter.mpr ⟨stored, by simp [live]⟩
    have evidence : fileEvidence (input.schema.scalarType row.columnId) row ∈ input.fileEvidences row.columnId :=
      List.mem_map_of_mem taken
    rw [← sameFile] at member
    obtain ⟨held, denotes, low, high, bounds, above, below⟩ := (faithful.files row stored live).within
      (fun refuted => accepted (List.mem_append_left _ (refuted ▸ evidence))) member
    exact ⟨held, denotes, low, high, above, below, List.mem_append_left _ (bounds ▸ evidence)⟩
  · rcases (faithful.summaries summary listed).merges leaf with ⟨_, none⟩ | ⟨inline, one, merge⟩
    · rw [none] at member
      cases member
    · have evidence : inlineEvidence (input.schema.scalarType columnId) inline ∈
          input.summaryEvidence input.summaries columnId :=
        List.mem_flatMap.mpr ⟨summary, listed, by simp [one]⟩
      obtain ⟨held, denotes, low, high, bounds, above, below⟩ := merge.within
        (fun refuted => accepted (List.mem_append_right _ (refuted ▸ evidence)))
        (fun forgets => remembered (forgets ▸ evidence)) member
      exact ⟨held, denotes, low, high, above, below, List.mem_append_right _ (bounds ▸ evidence)⟩

/-- A null of a covered column was counted by some row or payload. -/
theorem null_reported
    (covered : ¬ ColumnUncovered input.files input.fileColumnStats columnId) (holds : input.Holds columnId none) :
    (GlobalTableStats.sourcesView input.schema input.files input.fileColumnStats (input.summaries.map (·.lines))
      columnId).containsNull = true := by
  rw [GlobalTableStats.sourcesView, ColumnView.mergeAll_containsNull, ColumnView.mergeFiles_containsNull]
  simp only [ColumnView.unseen, Bool.false_or, Bool.or_eq_true, List.any_eq_true, decide_eq_true_eq, Bool.and_eq_true]
  rcases holds with ⟨file, listed, member⟩ | ⟨summary, listed, member⟩
  · simp only [ColumnUncovered, not_exists, not_and, not_forall, not_not] at covered
    obtain ⟨row, stored, sameFile, rfl⟩ := covered file listed
    have live : row.dataFileId ∈ input.files.map (·.dataFileId) := by
      rw [sameFile]
      exact List.mem_map_of_mem listed
    refine Or.inl ⟨row, List.mem_filter.mpr ⟨stored, by simp [live]⟩, ?_⟩
    rw [(faithful.files row stored live).nullCount, List.countP_pos_iff, sameFile]
    exact ⟨none, member, rfl⟩
  · rcases (faithful.summaries summary listed).merges leaf with ⟨_, empty⟩ | ⟨inline, one, merge⟩
    · rw [empty] at member
      cases member
    · refine Or.inr ⟨inline, ?_, merge.nulls member⟩
      rw [List.flatMap_map]
      exact List.mem_flatMap.mpr ⟨summary, listed, by rw [one]; exact List.mem_singleton_self inline⟩

theorem lineSound_of_unmixed
    (covered : ¬ ColumnUncovered input.files input.fileColumnStats columnId) {line : GlobalColumnStats}
    (scalarType : line.scalarType = input.schema.scalarType columnId)
    (nulls : line.containsNull = (GlobalTableStats.sourcesView input.schema input.files input.fileColumnStats
      (input.summaries.map (·.lines)) columnId).containsNull)
    (tracks : line.Tracks (input.extremaAfter input.summaries columnId))
    (unmixed : ¬ input.MixesEvidence columnId) : input.LineSound columnId line := by
  have reaches : line.hasMin = true ∨ line.hasMax = true → ∃ range,
      input.extremaAfter input.summaries columnId = .known (some range) ∧
        scalarValue (input.schema.scalarType columnId) line.minValue = some range.1 ∧
        scalarValue (input.schema.scalarType columnId) line.maxValue = some range.2 := by
    intro has
    match reached : input.extremaAfter input.summaries columnId with
    | .unknowable | .known none =>
      rw [reached] at tracks
      simp [tracks.2.1, tracks.2.2] at has
    | .known (some (low, high)) =>
      rw [reached] at tracks
      obtain ⟨_, _, isLow, _, isHigh⟩ := tracks
      rw [scalarType] at isLow isHigh
      exact ⟨(low, high), rfl, isLow, isHigh⟩
  have within : ∀ range, input.extremaAfter input.summaries columnId = .known (some range) →
      ∀ value, input.Holds columnId (some value) →
        ∃ held ∈ scalarValue (input.schema.scalarType columnId) value, range.1 ≤ held ∧ held ≤ range.2 := by
    intro range ends value holds
    have accepted : .refute ∉ input.fileEvidences columnId ++ input.summaryEvidence input.summaries columnId := by
      intro refuted
      rw [extremaAfter, Extrema.run_refuted refuted] at ends
      cases ends
    have remembered : .forget ∉ input.summaryEvidence input.summaries columnId := by
      rw [extremaAfter, Extrema.run_append] at ends
      refine Extrema.run_never_forgets ?_ ends
      rintro low high ⟨forgets, bounds⟩
      refine unmixed ⟨covered, ?_, fun refuted => accepted (List.mem_append_right _ refuted), forgets, low, high, bounds⟩
      intro row taken refuted
      exact accepted (List.mem_append_left _ (List.mem_map.mpr ⟨row, taken, refuted⟩))
    obtain ⟨held, denotes, low, high, above, below, bounds⟩ :=
      held_within faithful leaf covered accepted remembered holds
    have kept : .forget ∉ input.fileEvidences columnId ++ input.summaryEvidence input.summaries columnId := by
      rw [List.mem_append, not_or]
      exact ⟨remembered_fileEvidences columnId, remembered⟩
    obtain ⟨lower, upper⟩ := (Extrema.run_covers kept ends).1 low high bounds
    exact ⟨held, denotes, lower.trans above, below.trans upper⟩
  refine ⟨?_, ?_, ?_⟩
  · intro has value holds
    obtain ⟨range, ends, isLow, _⟩ := reaches (Or.inl has)
    obtain ⟨held, denotes, lower, _⟩ := within range ends value holds
    exact ⟨range.1, isLow, held, denotes, lower⟩
  · intro has value holds
    obtain ⟨range, ends, _, isHigh⟩ := reaches (Or.inr has)
    obtain ⟨held, denotes, _, upper⟩ := within range ends value holds
    exact ⟨held, denotes, range.2, isHigh, upper⟩
  · intro denies holds
    rw [nulls, null_reported faithful leaf covered holds] at denies
    cases denies

end

omit faithful in
theorem extremaAfter_perm (covered : ¬ ColumnUncovered input.files input.fileColumnStats columnId)
    (unmixed : ¬ input.MixesEvidence columnId) (reordered : input.summaries.Perm summaries) :
    input.extremaAfter input.summaries columnId = input.extremaAfter summaries columnId := by
  have moved : (input.summaryEvidence input.summaries columnId).Perm (input.summaryEvidence summaries columnId) :=
    summaryEvidence_perm reordered columnId
  by_cases refuted : .refute ∈ input.fileEvidences columnId ++ input.summaryEvidence input.summaries columnId
  · have again : .refute ∈ input.fileEvidences columnId ++ input.summaryEvidence summaries columnId :=
      (List.Perm.append_left _ moved).mem_iff.mp refuted
    rw [extremaAfter, extremaAfter, Extrema.run_refuted refuted, Extrema.run_refuted again]
  · rw [extremaAfter, extremaAfter, Extrema.run_append, Extrema.run_append]
    apply Extrema.run_perm moved
    rintro low high ⟨forgets, bounds⟩
    refine unmixed ⟨covered, ?_, fun refutes => refuted (List.mem_append_right _ refutes), forgets, low, high, bounds⟩
    intro row taken refutes
    exact refuted (List.mem_append_left _ (List.mem_map.mpr ⟨row, taken, refutes⟩))

theorem sound_of_unmixed (other : OtherScalarOrder) (mergeGlobalExtraStats : String → String → String)
    (unmixed : ∀ columnId ∈ leafColumnIds input.table, ¬ input.MixesEvidence columnId) :
    input.Sound other mergeGlobalExtraStats := by
  obtain ⟨text, renders, lines, present⟩ :=
    rendered_lines faithful other mergeGlobalExtraStats (List.Perm.refl input.summaries)
  refine ⟨text, renders, ?_⟩
  intro columnId line listed
  obtain ⟨leaf, shown⟩ := lines columnId line listed
  refine ⟨?_, ?_⟩
  · rcases shown with ⟨_, noMin, noMax, nulls⟩ | ⟨covered, scalarType, nulls, tracks⟩
    · exact ⟨by simp [noMin], by simp [noMax], by simp [nulls]⟩
    · exact lineSound_of_unmixed faithful leaf covered scalarType nulls tracks (unmixed columnId leaf)
  · intro summaries reordered
    obtain ⟨again, rendersAgain, linesAgain, presentAgain⟩ :=
      rendered_lines faithful other mergeGlobalExtraStats reordered
    obtain ⟨same, listedAgain⟩ := (presentAgain columnId leaf).mpr ((present columnId leaf).mp ⟨line, listed⟩)
    refine ⟨again, rendersAgain, same, listedAgain, ?_⟩
    obtain ⟨_, shownAgain⟩ := linesAgain columnId same listedAgain
    rcases shown with ⟨uncovered, noMin, noMax, _⟩ | ⟨covered, scalarType, _, tracks⟩
    · rcases shownAgain with ⟨_, sameMin, sameMax, _⟩ | ⟨covered, _⟩
      · exact ⟨noMin.trans sameMin.symm, noMax.trans sameMax.symm, by simp [noMin], by simp [noMax]⟩
      · exact absurd uncovered covered
    · rcases shownAgain with ⟨uncovered, _⟩ | ⟨_, sameType, _, tracksAgain⟩
      · exact absurd uncovered covered
      · rw [extremaAfter_perm covered (unmixed columnId leaf) reordered] at tracks
        exact tracks.sameBounds tracksAgain scalarType sameType

/-- Any payload may arrive last. -/
theorem evidence_last (leaf : columnId ∈ leafColumnIds input.table)
    (given : evidence ∈ input.summaryEvidence input.summaries columnId) :
    ∃ last, input.summaries.Perm last ∧ ∃ others, input.summaryEvidence last columnId = others ++ [evidence] := by
  obtain ⟨summary, member, said⟩ := List.mem_flatMap.mp given
  have one := summary_evidence faithful member leaf said
  obtain ⟨before, after, split⟩ := List.append_of_mem member
  refine ⟨(before ++ after) ++ [summary], ?_, input.summaryEvidence (before ++ after) columnId, ?_⟩
  · rw [split]
    exact List.perm_middle.trans (List.perm_append_singleton _ _).symm
  · simp only [summaryEvidence, List.flatMap_append, List.flatMap_singleton, one]

/-- A line that says the same in every order follows the evidence of each of them. -/
theorem Sound.line_tracks {other : OtherScalarOrder} {mergeGlobalExtraStats : String → String → String}
    (sound : input.Sound other mergeGlobalExtraStats) (leaf : columnId ∈ leafColumnIds input.table)
    (covered : ¬ ColumnUncovered input.files input.fileColumnStats columnId)
    (reported : input.summaryEvidence input.summaries columnId ≠ []) :
    ∃ line : GlobalColumnStats, ∀ reordered, input.summaries.Perm reordered → ∃ same : GlobalColumnStats,
      line.hasMin = same.hasMin ∧ same.Tracks (input.extremaAfter reordered columnId) := by
  obtain ⟨text, renders, lines⟩ := sound
  obtain ⟨first, rendersFirst, _, present⟩ :=
    rendered_lines faithful other mergeGlobalExtraStats (List.Perm.refl input.summaries)
  obtain rfl := Except.ok.inj (rendersFirst.symm.trans renders)
  obtain ⟨evidence, given⟩ := List.exists_mem_of_ne_nil _ reported
  obtain ⟨summary, member, said⟩ := List.mem_flatMap.mp given
  have touched : GlobalTableStats.TouchesColumn summary.lines columnId :=
    (faithful.summaries summary member).touches fun empty => by simp [empty] at said
  obtain ⟨line, listed⟩ := (present columnId leaf).mpr (Or.inr ⟨summary, member, touched⟩)
  refine ⟨line, ?_⟩
  intro reordered moved
  obtain ⟨_, again⟩ := lines columnId line listed
  obtain ⟨text, renders, same, listedSame, bounds⟩ := again reordered moved
  obtain ⟨also, rendersAlso, shown, _⟩ := rendered_lines faithful other mergeGlobalExtraStats moved
  obtain rfl := Except.ok.inj (rendersAlso.symm.trans renders)
  obtain ⟨_, ⟨uncovered, _⟩ | ⟨_, _, _, tracks⟩⟩ := shown columnId same listedSame
  · exact absurd uncovered covered
  · exact ⟨same, bounds.hasMin, tracks⟩

/-- A payload that clears a column and one that bounds it leave different lines, depending on which is last. -/
theorem Sound.unmixed {other : OtherScalarOrder} {mergeGlobalExtraStats : String → String → String}
    (sound : input.Sound other mergeGlobalExtraStats)
    (leaf : columnId ∈ leafColumnIds input.table) : ¬ input.MixesEvidence columnId := by
  intro mixes
  have accepted : .refute ∉ input.fileEvidences columnId ++ input.summaryEvidence input.summaries columnId := by
    rw [List.mem_append, not_or]
    refine ⟨?_, mixes.summariesAccepted⟩
    intro refuted
    obtain ⟨row, taken, same⟩ := List.mem_map.mp refuted
    exact mixes.filesAccepted row taken same
  have stillAccepted : ∀ {last others evidence}, input.summaries.Perm last →
      input.summaryEvidence last columnId = others ++ [evidence] → .refute ∉ input.fileEvidences columnId ++ others := by
    intro last others evidence reordered split refuted
    have moved : (input.summaryEvidence input.summaries columnId).Perm (input.summaryEvidence last columnId) :=
      summaryEvidence_perm reordered columnId
    have moved := List.Perm.append_left (input.fileEvidences columnId) moved
    rw [split, ← List.append_assoc] at moved
    exact accepted (moved.mem_iff.mpr (List.mem_append_left _ refuted))
  obtain ⟨low, high, bounds⟩ := mixes.bounds
  obtain ⟨line, tracks⟩ := Sound.line_tracks faithful sound leaf mixes.covered (List.ne_nil_of_mem bounds)
  obtain ⟨clearedLast, cleared, before, clearedSplit⟩ := evidence_last faithful leaf mixes.forgets
  obtain ⟨boundedLast, bounded, earlier, boundedSplit⟩ := evidence_last faithful leaf bounds
  have noMin : line.hasMin = false := by
    obtain ⟨same, equal, tracked⟩ := tracks clearedLast cleared
    rw [extremaAfter, clearedSplit, ← List.append_assoc,
      Extrema.run_last_forgets (stillAccepted cleared clearedSplit)] at tracked
    exact equal.trans tracked.2.1
  obtain ⟨same, equal, tracked⟩ := tracks boundedLast bounded
  obtain ⟨range, ends⟩ := Extrema.run_last_bounds (stillAccepted bounded boundedSplit) none low high
  rw [extremaAfter, boundedSplit, ← List.append_assoc, ends] at tracked
  have hasMin : same.hasMin = true := tracked.2.1
  rw [← equal, noMin] at hasMin
  cases hasMin

/-- The bounds of a column are sound and do not depend on the order of the payloads exactly when no payload
clears what another one bounds. -/
theorem globalColumnStats_sound_iff (other : OtherScalarOrder) (mergeGlobalExtraStats : String → String → String) :
    input.Sound other mergeGlobalExtraStats ↔
      ∀ columnId ∈ leafColumnIds input.table, ¬ input.MixesEvidence columnId :=
  ⟨fun sound _ leaf => Sound.unmixed faithful sound leaf, sound_of_unmixed faithful other mergeGlobalExtraStats⟩

end GlobalStatsInput

/-! ## Three payloads -/

def boundsTable : TableRow :=
  { tableId := 8, name := "bounds", validity := ⟨1, none⟩
    columns := [{ columnId := 1, name := "value", columnType := "BIGINT", nullsAllowed := true }] }

def valueSummary (text : String) : InlineSummary where
  payload := [["inline_aggregate_stats", "1"], ["inline_aggregate_column_stats", "1", "1", "true", text, "true", text]]
  recordCount := 1
  values _ := [some text]

def nullSummary : InlineSummary where
  payload := [["inline_aggregate_stats", "1"], ["inline_aggregate_column_stats", "1", "0", "false", "", "false", ""]]
  recordCount := 1
  values _ := [none]

def boundsInput (summaries : List InlineSummary) : GlobalStatsInput where
  table := boundsTable
  allocatedNextRowId := 0
  files := []
  fileColumnStats := []
  fileValues _ _ := []
  summaries := summaries

theorem boundsTable_leaves : leafColumnIds boundsTable = [1] := by decide +kernel

theorem nullSummary_faithful (schema : GlobalStatsSchema) (leaves : schema.leafColumnIds = [1]) :
    nullSummary.Faithful schema := by
  have lines : nullSummary.lines = [.aggregateStats 1, .aggregateColumnStats 1 0 none none] := by decide +kernel
  refine ⟨by decide +kernel, ?_, ⟨[], .aggregateStats 1, _, lines, by simp, rfl⟩, by rw [lines]; decide, ?_⟩
  · intro line member
    rw [lines] at member
    rcases List.mem_pair.mp member with rfl | rfl
    · rfl
    · exact ⟨rfl, rfl, by simp, by simp⟩
  · intro columnId leaf unlisted
    rw [leaves, List.mem_singleton] at leaf
    rw [lines] at unlisted
    subst leaf
    exact absurd (by decide) unlisted

theorem valueSummary_faithful (schema : GlobalStatsSchema) (leaves : schema.leafColumnIds = [1]) {text : String}
    (lines : (valueSummary text).payload.mapM parseInlineStatsLine =
      .ok [.aggregateStats 1, .aggregateColumnStats 1 1 (some text) (some text)]) :
    (valueSummary text).Faithful schema := by
  have read : (valueSummary text).lines = [.aggregateStats 1, .aggregateColumnStats 1 1 (some text) (some text)] := by
    rw [InlineSummary.lines, lines]
    rfl
  refine ⟨by rw [lines, read], ?_, ⟨[], .aggregateStats 1, _, read, by simp, rfl⟩,
    by rw [read]; simp [InlineStatsLine.merge?], ?_⟩
  · intro line member
    rw [read] at member
    rcases List.mem_pair.mp member with rfl | rfl
    · rfl
    · refine ⟨rfl, rfl, ?_, ?_⟩
      · intro bound low given denotes value held
        obtain rfl := Option.some.inj given
        obtain rfl := Option.some.inj (List.mem_singleton.mp held)
        exact ⟨low, denotes, le_rfl⟩
      · intro bound high given denotes value held
        obtain rfl := Option.some.inj given
        obtain rfl := Option.some.inj (List.mem_singleton.mp held)
        exact ⟨high, denotes, le_rfl⟩
  · intro columnId leaf unlisted
    rw [leaves, List.mem_singleton] at leaf
    rw [read] at unlisted
    subst leaf
    exact absurd (by simp [InlineStatsLine.merge?]) unlisted

theorem boundsInput_faithful {summaries : List InlineSummary}
    (each : ∀ summary ∈ summaries, summary = nullSummary ∨ summary = valueSummary "5" ∨ summary = valueSummary "7") :
    (boundsInput summaries).Faithful := by
  refine ⟨?_, by simp [boundsInput], ?_⟩
  · intro columnId leaf
    have one : columnId = 1 := List.mem_singleton.mp (boundsTable_leaves ▸ leaf)
    subst one
    show ((GlobalStatsSchema.ofTable boundsTable).scalarType 1).isExact = true
    decide +kernel
  · intro summary member
    rcases each summary member with rfl | rfl | rfl
    · exact nullSummary_faithful _ boundsTable_leaves
    · exact valueSummary_faithful _ boundsTable_leaves (by decide +kernel)
    · exact valueSummary_faithful _ boundsTable_leaves (by decide +kernel)

/-- Two payloads with bounds. -/
theorem globalColumnStats_sound_two_values : (boundsInput [valueSummary "5", valueSummary "7"]).Faithful ∧
    (boundsInput [valueSummary "5", valueSummary "7"]).Sound (fun _ _ _ => none) (fun _ incoming => incoming) := by
  have faithful : (boundsInput [valueSummary "5", valueSummary "7"]).Faithful := boundsInput_faithful (by simp)
  refine ⟨faithful, (GlobalStatsInput.globalColumnStats_sound_iff faithful _ _).mpr ?_⟩
  intro columnId leaf mixes
  have one : columnId = 1 := List.mem_singleton.mp (boundsTable_leaves ▸ leaf)
  subst one
  obtain ⟨summary, member, forgets⟩ := List.mem_flatMap.mp mixes.forgets
  have merges : payloadMerges (GlobalStatsSchema.ofTable boundsTable) summary.lines 1 = [⟨true, false, true, some "5", some "5"⟩] ∨
      payloadMerges (GlobalStatsSchema.ofTable boundsTable) summary.lines 1 = [⟨true, false, true, some "7", some "7"⟩] := by
    rcases List.mem_pair.mp member with rfl | rfl
    · exact Or.inl (by decide +kernel)
    · exact Or.inr (by decide +kernel)
  have remembers : ∀ scalarType text, inlineEvidence scalarType ⟨true, false, true, some text, some text⟩ ≠ .forget := by
    intro scalarType text
    change boundsEvidence scalarType text text ≠ .forget
    rcases boundsEvidence_cases scalarType text text with refuted | ⟨_, _, _, _, _, bounds⟩
    · simp [refuted]
    · simp [bounds]
  rcases merges with one | one
  · rw [show payloadMerges (boundsInput _).schema summary.lines 1 = _ from one] at forgets
    exact remembers _ _ (List.mem_singleton.mp forgets).symm
  · rw [show payloadMerges (boundsInput _).schema summary.lines 1 = _ from one] at forgets
    exact remembers _ _ (List.mem_singleton.mp forgets).symm

/-- The value 5, then a null, then the value 7: the reported minimum is 7. -/
theorem globalColumnStats_null_between_values : ¬ ∀ (other : OtherScalarOrder)
    (mergeGlobalExtraStats : String → String → String) (input : GlobalStatsInput), input.Faithful →
    input.Sound other mergeGlobalExtraStats := by
  intro always
  obtain ⟨text, renders, lines⟩ := always (fun _ _ _ => none) (fun _ incoming => incoming) _
    (@boundsInput_faithful [valueSummary "5", nullSummary, valueSummary "7"] (by simp))
  let line : GlobalColumnStats :=
    { scalarType := .signedInteger 64, hasContainsNull := true, containsNull := true, hasMin := true, minValue := "7"
      hasMax := true, maxValue := "7" }
  have evaluated : (boundsInput [valueSummary "5", nullSummary, valueSummary "7"]).rendered (fun _ _ _ => none)
      (fun _ incoming => incoming) [valueSummary "5", nullSummary, valueSummary "7"] =
      .ok { tableId := 8, recordCount := 3, nextRowId := 0, tableSizeBytes := 0, columns := [(1, line)] } := by
    decide +kernel
  obtain rfl := Except.ok.inj (evaluated.symm.trans renders)
  obtain ⟨sound, _⟩ := lines 1 line List.mem_cons_self
  have five : (boundsInput [valueSummary "5", nullSummary, valueSummary "7"]).Holds 1 (some "5") :=
    Or.inr ⟨valueSummary "5", List.mem_cons_self, List.mem_cons_self⟩
  have bigint : (GlobalStatsSchema.ofTable boundsTable).scalarType 1 = .signedInteger 64 := by decide +kernel
  have bounded : ScalarLe (.signedInteger 64) "7" "5" := by
    rw [← bigint]
    exact sound.minimum rfl "5" five
  obtain ⟨low, isLow, high, isHigh, ordered⟩ := bounded
  have seven : parseInteger "7" 64 true = some ⟨false, 7⟩ := by decide +kernel
  have least : parseInteger "5" 64 true = some ⟨false, 5⟩ := by decide +kernel
  simp only [scalarValue, seven, least, Option.map_some, Option.mem_some_iff] at isLow isHigh
  rw [← isLow, ← isHigh, integerScalar, integerScalar, Sum.Lex.inl_le_inl_iff] at ordered
  norm_num [ExactInteger.value] at ordered

end DucklakeCatalog
