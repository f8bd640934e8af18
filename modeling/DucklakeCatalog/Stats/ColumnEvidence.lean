import DucklakeCatalog.ScalarOrder.RunningBounds
import DucklakeCatalog.Stats.GlobalStats
import DucklakeCatalog.Stats.ScalarValues

/-! What each source says about the bounds of a column, and how the running statistics follow it. -/
namespace DucklakeCatalog

open ScalarOrder

/-- Both texts denote a value, and the first is not above the second. -/
def ScalarLe (scalarType : CatalogScalarType) (left right : String) : Prop :=
  ∃ low ∈ scalarValue scalarType left, ∃ high ∈ scalarValue scalarType right, low ≤ high

/-- A pair of bounds counts if it is readable and in order. -/
def boundsEvidence (scalarType : CatalogScalarType) (minValue maxValue : String) : Evidence ScalarValue :=
  match scalarValue scalarType minValue, scalarValue scalarType maxValue with
  | some low, some high => if low ≤ high then .bounds low high else .refute
  | _, _ => .refute

def inlineEvidence (scalarType : CatalogScalarType) (inline : InlineStatsMerge) : Evidence ScalarValue :=
  match inline.minValue, inline.maxValue with
  | some minValue, some maxValue => boundsEvidence scalarType minValue maxValue
  | none, none => if inline.hasNonNullValues then .refute else .forget
  | _, _ => .refute

def fileEvidence (scalarType : CatalogScalarType) (row : FileColumnStatsRow) : Evidence ScalarValue :=
  let allValuesAreKnownNull := row.valueCount.any fun valueCount => decide (valueCount ≤ row.nullCount)
  match row.minValue, row.maxValue with
  | some minValue, some maxValue =>
    if allValuesAreKnownNull then .refute else boundsEvidence scalarType minValue maxValue
  | none, none => if allValuesAreKnownNull then .silent else .refute
  | _, _ => .refute

theorem boundsEvidence_cases (scalarType : CatalogScalarType) (minValue maxValue : String) :
    boundsEvidence scalarType minValue maxValue = .refute ∨
      ∃ low ∈ scalarValue scalarType minValue, ∃ high ∈ scalarValue scalarType maxValue, low ≤ high ∧
        boundsEvidence scalarType minValue maxValue = .bounds low high := by
  simp only [boundsEvidence]
  cases scalarValue scalarType minValue with
  | none => exact Or.inl rfl
  | some low =>
    cases scalarValue scalarType maxValue with
    | none => exact Or.inl rfl
    | some high =>
      by_cases ordered : low ≤ high
      · exact Or.inr ⟨low, rfl, high, rfl, ordered, by simp [ordered]⟩
      · exact Or.inl (by simp [ordered])

theorem fileEvidence_remembers (scalarType : CatalogScalarType) (row : FileColumnStatsRow) :
    fileEvidence scalarType row ≠ .forget := by
  intro forgets
  simp only [fileEvidence] at forgets
  split at forgets
  · split at forgets
    · cases forgets
    · rcases boundsEvidence_cases scalarType _ _ with refuted | ⟨_, _, _, _, _, given⟩
      · rw [refuted] at forgets
        cases forgets
      · rw [given] at forgets
        cases forgets
  · split at forgets <;> cases forgets
  · cases forgets

/-! ## Comparisons -/

section

variable {scalarType : CatalogScalarType} (exact : scalarType.isExact = true) (other : OtherScalarOrder)

include exact

theorem compareTypedScalars_ordered (minValue maxValue : String) :
    ((compareTypedScalars other scalarType minValue maxValue).any (· != .gt) = true ↔
      boundsEvidence scalarType minValue maxValue ≠ .refute) ∧
    ((compareTypedScalars other scalarType minValue maxValue).all (· == .gt) = true ↔
      boundsEvidence scalarType minValue maxValue = .refute) := by
  rw [compareTypedScalars_eq exact other]
  simp only [boundsEvidence]
  cases scalarValue scalarType minValue with
  | none => simp
  | some low =>
    cases scalarValue scalarType maxValue with
    | none => simp
    | some high =>
      simp only [Option.map₂_some_some, Option.any_some, Option.all_some, bne_iff_ne, ne_eq, beq_iff_eq,
        compare_gt_iff_gt]
      by_cases ordered : low ≤ high
      · simp [ordered, not_lt.mpr ordered]
      · simp [ordered, not_le.mp ordered]

theorem typedExtremaAreInvalid_iff (row : FileColumnStatsRow) :
    typedExtremaAreInvalid other scalarType row.valueCount row.nullCount row.minValue row.maxValue = true ↔
      fileEvidence scalarType row = .refute := by
  simp only [typedExtremaAreInvalid, fileEvidence]
  cases allNull : row.valueCount.any fun valueCount => decide (valueCount ≤ row.nullCount) <;>
    cases row.minValue <;> cases row.maxValue <;> simp
  rename_i minValue maxValue
  have ordered := (compareTypedScalars_ordered exact other minValue maxValue).1
  rw [← not_iff_not, Bool.not_eq_false, ordered]

end

/-! ## Running statistics -/

/-- The statistics hold texts for the bounds known so far. -/
def GlobalColumnStats.Tracks (stats : GlobalColumnStats) : Extrema ScalarValue → Prop
  | .unknowable => stats.invalidExtrema = true ∧ stats.hasMin = false ∧ stats.hasMax = false
  | .known none => stats.invalidExtrema = false ∧ stats.hasMin = false ∧ stats.hasMax = false
  | .known (some (low, high)) =>
    stats.invalidExtrema = false ∧ stats.hasMin = true ∧ scalarValue stats.scalarType stats.minValue = some low ∧
      stats.hasMax = true ∧ scalarValue stats.scalarType stats.maxValue = some high

namespace GlobalColumnStats

variable {stats : GlobalColumnStats} {extrema : Extrema ScalarValue}

theorem invalidateExtrema_tracks (stats : GlobalColumnStats) : stats.invalidateExtrema.Tracks .unknowable :=
  ⟨rfl, rfl, rfl⟩

theorem clearExtrema_tracks (tracks : stats.Tracks extrema) : stats.clearExtrema.Tracks (extrema.step .forget) := by
  match extrema with
  | .unknowable => exact ⟨tracks.1, rfl, rfl⟩
  | .known none => exact ⟨tracks.1, rfl, rfl⟩
  | .known (some _) => exact ⟨tracks.1, rfl, rfl⟩

theorem tracks_unknowable (tracks : stats.Tracks extrema) (invalid : stats.invalidExtrema = true) :
    extrema = .unknowable := by
  match extrema with
  | .unknowable => rfl
  | .known none => simp [Tracks, invalid] at tracks
  | .known (some _) => simp [Tracks, invalid] at tracks

theorem lowerMin_keeps (stats : GlobalColumnStats) (other : OtherScalarOrder) (minValue : String) :
    (stats.lowerMin other minValue).scalarType = stats.scalarType ∧
      (stats.lowerMin other minValue).invalidExtrema = stats.invalidExtrema ∧
      (stats.lowerMin other minValue).hasMax = stats.hasMax ∧
      (stats.lowerMin other minValue).maxValue = stats.maxValue ∧
      (stats.lowerMin other minValue).containsNull = stats.containsNull := by
  simp only [lowerMin]
  split <;> exact ⟨rfl, rfl, rfl, rfl, rfl⟩

theorem raiseMax_keeps (stats : GlobalColumnStats) (other : OtherScalarOrder) (maxValue : String) :
    (stats.raiseMax other maxValue).scalarType = stats.scalarType ∧
      (stats.raiseMax other maxValue).invalidExtrema = stats.invalidExtrema ∧
      (stats.raiseMax other maxValue).hasMin = stats.hasMin ∧
      (stats.raiseMax other maxValue).minValue = stats.minValue ∧
      (stats.raiseMax other maxValue).containsNull = stats.containsNull := by
  simp only [raiseMax]
  split <;> exact ⟨rfl, rfl, rfl, rfl, rfl⟩

section

variable (exact : stats.scalarType.isExact = true) (other : OtherScalarOrder)

include exact

theorem lowerMin_lowers {minValue : String} {low : ScalarValue}
    (lowest : scalarValue stats.scalarType minValue = some low) :
    (stats.lowerMin other minValue).hasMin = true ∧
      (stats.hasMin = false → scalarValue stats.scalarType (stats.lowerMin other minValue).minValue = some low) ∧
      ∀ old, stats.hasMin = true → scalarValue stats.scalarType stats.minValue = some old →
        scalarValue stats.scalarType (stats.lowerMin other minValue).minValue = some (min old low) := by
  simp only [lowerMin, compareTypedScalars_eq exact other, lowest]
  cases hasMin : stats.hasMin with
  | false => simp [lowest]
  | true =>
    refine ⟨by split <;> simp [hasMin], by simp, ?_⟩
    intro old _ oldMin
    simp only [oldMin, Option.map₂_some_some, Bool.not_true, Bool.false_or, beq_iff_eq, Option.some.injEq,
      compare_lt_iff_lt]
    by_cases lower : low < old
    · simp only [lower, if_true, lowest, min_eq_right lower.le]
    · simp only [lower, if_false, oldMin, min_eq_left (not_lt.mp lower)]

theorem raiseMax_raises {maxValue : String} {high : ScalarValue}
    (highest : scalarValue stats.scalarType maxValue = some high) :
    (stats.raiseMax other maxValue).hasMax = true ∧
      (stats.hasMax = false → scalarValue stats.scalarType (stats.raiseMax other maxValue).maxValue = some high) ∧
      ∀ old, stats.hasMax = true → scalarValue stats.scalarType stats.maxValue = some old →
        scalarValue stats.scalarType (stats.raiseMax other maxValue).maxValue = some (max old high) := by
  simp only [raiseMax, compareTypedScalars_eq exact other, highest]
  cases hasMax : stats.hasMax with
  | false => simp [highest]
  | true =>
    refine ⟨by split <;> simp [hasMax], by simp, ?_⟩
    intro old _ oldMax
    simp only [oldMax, Option.map₂_some_some, Bool.not_true, Bool.false_or, beq_iff_eq, Option.some.injEq,
      compare_gt_iff_gt]
    by_cases higher : old < high
    · simp only [higher, if_true, highest, max_eq_right higher.le]
    · simp only [higher, if_false, oldMax, max_eq_left (not_lt.mp higher)]

/-- Valid bounds widen those known so far. -/
theorem extend_tracks (tracks : stats.Tracks extrema) (valid : stats.invalidExtrema = false) {minValue maxValue : String}
    {low high : ScalarValue} (lowest : scalarValue stats.scalarType minValue = some low)
    (highest : scalarValue stats.scalarType maxValue = some high) :
    ((stats.lowerMin other minValue).raiseMax other maxValue).Tracks (extrema.step (.bounds low high)) := by
  obtain ⟨lowered, first, further⟩ := lowerMin_lowers exact other lowest
  obtain ⟨sameType, sameValidity, sameHasMax, sameMax, _⟩ := stats.lowerMin_keeps other minValue
  rw [← sameType] at exact highest
  obtain ⟨raised, firstMax, furtherMax⟩ := raiseMax_raises exact other highest
  obtain ⟨keptType, keptValidity, keptHasMin, keptMin, _⟩ := (stats.lowerMin other minValue).raiseMax_keeps other maxValue
  rw [sameType] at firstMax furtherMax keptType
  rw [sameHasMax] at firstMax furtherMax
  rw [sameMax] at furtherMax
  match extrema with
  | .unknowable =>
    have invalid := tracks.1
    rw [valid] at invalid
    cases invalid
  | .known none =>
    obtain ⟨_, noMin, noMax⟩ := tracks
    simp only [Extrema.step, Extrema.widen, Tracks, keptValidity, sameValidity, valid, keptHasMin, lowered, raised,
      keptType, keptMin, first noMin, firstMax noMax, and_self]
  | .known (some (oldLow, oldHigh)) =>
    obtain ⟨_, hasMin, oldMin, hasMax, oldMax⟩ := tracks
    simp only [Extrema.step, Extrema.widen, Tracks, keptValidity, sameValidity, valid, keptHasMin, lowered, raised,
      keptType, keptMin, further oldLow hasMin oldMin, furtherMax oldHigh hasMax oldMax, and_self]

theorem mergeInlineExtrema_tracks (tracks : stats.Tracks extrema) (inline : InlineStatsMerge) :
    (stats.mergeInlineExtrema other inline).Tracks (extrema.step (inlineEvidence stats.scalarType inline)) := by
  simp only [mergeInlineExtrema, inlineEvidence]
  cases lowest : inline.minValue with
  | none =>
    cases highest : inline.maxValue with
    | none =>
      dsimp only
      split
      · cases extrema <;> exact stats.invalidateExtrema_tracks
      · exact clearExtrema_tracks tracks
    | some maxValue => cases extrema <;> exact stats.invalidateExtrema_tracks
  | some minValue =>
    cases highest : inline.maxValue with
    | none => cases extrema <;> exact stats.invalidateExtrema_tracks
    | some maxValue =>
      have disordered := (compareTypedScalars_ordered exact other minValue maxValue).2
      dsimp only
      split
      · rename_i invalid
        obtain rfl := tracks_unknowable tracks invalid
        exact tracks
      · rename_i valid
        rw [Bool.not_eq_true] at valid
        rcases boundsEvidence_cases stats.scalarType minValue maxValue with refuted | ⟨low, isLow, high, isHigh, _, given⟩
        · rw [if_pos (disordered.mpr refuted), refuted]
          cases extrema <;> exact stats.invalidateExtrema_tracks
        · rw [if_neg (by rw [disordered, given]; simp), given]
          exact extend_tracks exact other tracks valid isLow isHigh

theorem mergeFileExtrema_tracks (tracks : stats.Tracks extrema) (row : FileColumnStatsRow) :
    (stats.mergeFileExtrema other row).Tracks (extrema.step (fileEvidence stats.scalarType row)) := by
  simp only [mergeFileExtrema]
  have invalidity := typedExtremaAreInvalid_iff exact other row
  split
  · rename_i invalid
    rw [invalidity.mp invalid]
    cases extrema <;> exact stats.invalidateExtrema_tracks
  · rename_i accepted
    rw [invalidity] at accepted
    split
    · rename_i invalid
      obtain rfl := tracks_unknowable tracks invalid
      exact tracks
    · rename_i valid
      rw [Bool.not_eq_true] at valid
      simp only [fileEvidence] at accepted ⊢
      cases lowest : row.minValue with
      | none =>
        cases highest : row.maxValue with
        | none =>
          simp only [lowest, highest] at accepted ⊢
          split at accepted
          · rename_i allNull
            rw [if_pos allNull]
            cases extrema <;> exact tracks
          · exact absurd rfl accepted
        | some maxValue => simp [lowest, highest] at accepted
      | some minValue =>
        cases highest : row.maxValue with
        | none => simp [lowest, highest] at accepted
        | some maxValue =>
          simp only [lowest, highest] at accepted ⊢
          split at accepted
          · exact absurd rfl accepted
          · rename_i someValue
            rw [if_neg someValue]
            rcases boundsEvidence_cases stats.scalarType minValue maxValue with refuted | ⟨low, isLow, high, isHigh, _, given⟩
            · exact absurd refuted accepted
            · rw [given]
              exact extend_tracks exact other tracks valid isLow isHigh

end

/-! ## Whole rows and summaries -/

theorem Tracks.of_same {left right : GlobalColumnStats} (tracks : left.Tracks extrema)
    (sameType : right.scalarType = left.scalarType) (sameValidity : right.invalidExtrema = left.invalidExtrema)
    (sameMin : right.hasMin = left.hasMin ∧ right.minValue = left.minValue)
    (sameMax : right.hasMax = left.hasMax ∧ right.maxValue = left.maxValue) : right.Tracks extrema := by
  match extrema with
  | .unknowable => simpa only [Tracks, sameValidity, sameMin, sameMax] using tracks
  | .known none => simpa only [Tracks, sameValidity, sameMin, sameMax] using tracks
  | .known (some _) => simpa only [Tracks, sameType, sameValidity, sameMin, sameMax] using tracks

theorem noteInlineNulls_keeps (stats : GlobalColumnStats) (inline : InlineStatsMerge) :
    ∃ hasContainsNull, stats.noteInlineNulls inline =
      { stats with hasContainsNull, containsNull := stats.containsNull || (inline.hasContainsNull && inline.containsNull) } := by
  simp only [noteInlineNulls]
  cases inline.hasContainsNull with
  | false => exact ⟨stats.hasContainsNull, by simp⟩
  | true => exact ⟨true, by simp⟩

theorem mergeExtraStats_keeps (stats : GlobalColumnStats) (merge : String → String → String) (extraStats : String) :
    ∃ hasExtraStats text, stats.mergeExtraStats merge extraStats = { stats with hasExtraStats, extraStats := text } := by
  simp only [mergeExtraStats]
  split
  · exact ⟨stats.hasExtraStats, stats.extraStats, rfl⟩
  · exact ⟨_, _, rfl⟩

theorem mergeInlineExtrema_keeps (stats : GlobalColumnStats) (other : OtherScalarOrder) (inline : InlineStatsMerge) :
    (stats.mergeInlineExtrema other inline).scalarType = stats.scalarType ∧
      (stats.mergeInlineExtrema other inline).containsNull = stats.containsNull := by
  simp only [mergeInlineExtrema]
  split
  · split
    · exact ⟨rfl, rfl⟩
    · split
      · exact ⟨rfl, rfl⟩
      · exact ⟨(raiseMax_keeps _ other _).1.trans (lowerMin_keeps _ other _).1,
          (raiseMax_keeps _ other _).2.2.2.2.trans (lowerMin_keeps _ other _).2.2.2.2⟩
  · split <;> exact ⟨rfl, rfl⟩
  · exact ⟨rfl, rfl⟩

theorem mergeFileExtrema_keeps (stats : GlobalColumnStats) (other : OtherScalarOrder) (row : FileColumnStatsRow) :
    (stats.mergeFileExtrema other row).scalarType = stats.scalarType ∧
      (stats.mergeFileExtrema other row).containsNull = stats.containsNull := by
  simp only [mergeFileExtrema]
  split
  · exact ⟨rfl, rfl⟩
  · split
    · exact ⟨rfl, rfl⟩
    · have lowered : ∀ minValue : Option String,
          (minValue.elim stats (stats.lowerMin other)).scalarType = stats.scalarType ∧
            (minValue.elim stats (stats.lowerMin other)).containsNull = stats.containsNull := by
        intro minValue
        cases minValue with
        | none => exact ⟨rfl, rfl⟩
        | some minValue => exact ⟨(stats.lowerMin_keeps other minValue).1, (stats.lowerMin_keeps other minValue).2.2.2.2⟩
      cases row.maxValue with
      | none => exact lowered _
      | some maxValue =>
        exact ⟨(raiseMax_keeps _ other maxValue).1.trans (lowered _).1,
          (raiseMax_keeps _ other maxValue).2.2.2.2.trans (lowered _).2⟩

theorem mergeInline_keeps (stats : GlobalColumnStats) (other : OtherScalarOrder) (inline : InlineStatsMerge) :
    (stats.mergeInline other inline).scalarType = stats.scalarType ∧
      (stats.mergeInline other inline).containsNull =
        (stats.containsNull || (inline.hasContainsNull && inline.containsNull)) := by
  obtain ⟨hasContainsNull, noted⟩ := stats.noteInlineNulls_keeps inline
  obtain ⟨sameType, sameNulls⟩ := (stats.noteInlineNulls inline).mergeInlineExtrema_keeps other inline
  simp only [mergeInline]
  rw [sameType, sameNulls, noted]
  exact ⟨rfl, rfl⟩

theorem mergeFile_keeps (stats : GlobalColumnStats) (other : OtherScalarOrder) (merge : String → String → String)
    (row : FileColumnStatsRow) :
    (stats.mergeFile other merge row).scalarType = stats.scalarType ∧
      (stats.mergeFile other merge row).containsNull = (stats.containsNull || decide (0 < row.nullCount)) := by
  obtain ⟨sameType, sameNulls⟩ := (stats.noteFileNulls row).mergeFileExtrema_keeps other row
  simp only [mergeFile]
  cases row.extraStats with
  | none => exact ⟨sameType, sameNulls⟩
  | some extraStats =>
    obtain ⟨_, _, merged⟩ := mergeExtraStats_keeps ((stats.noteFileNulls row).mergeFileExtrema other row) merge extraStats
    rw [Option.elim_some, merged]
    exact ⟨sameType, sameNulls⟩

section

variable (exact : stats.scalarType.isExact = true) (other : OtherScalarOrder) (merge : String → String → String)

include exact

theorem mergeInline_tracks (tracks : stats.Tracks extrema) (inline : InlineStatsMerge) :
    (stats.mergeInline other inline).Tracks (extrema.step (inlineEvidence stats.scalarType inline)) := by
  obtain ⟨hasContainsNull, noted⟩ := stats.noteInlineNulls_keeps inline
  have sameType : (stats.noteInlineNulls inline).scalarType = stats.scalarType := by rw [noted]
  have starts : (stats.noteInlineNulls inline).Tracks extrema := by
    rw [noted]
    exact tracks.of_same rfl rfl ⟨rfl, rfl⟩ ⟨rfl, rfl⟩
  have merged := mergeInlineExtrema_tracks (sameType ▸ exact) other starts inline
  rwa [sameType] at merged

theorem mergeFile_tracks (tracks : stats.Tracks extrema) (row : FileColumnStatsRow) :
    (stats.mergeFile other merge row).Tracks (extrema.step (fileEvidence stats.scalarType row)) := by
  have starts : (stats.noteFileNulls row).Tracks extrema := tracks.of_same rfl rfl ⟨rfl, rfl⟩ ⟨rfl, rfl⟩
  have merged : ((stats.noteFileNulls row).mergeFileExtrema other row).Tracks
      (extrema.step (fileEvidence stats.scalarType row)) :=
    @mergeFileExtrema_tracks (stats.noteFileNulls row) extrema exact other starts row
  simp only [mergeFile]
  cases row.extraStats with
  | none => exact merged
  | some extraStats =>
    obtain ⟨_, _, same⟩ := mergeExtraStats_keeps ((stats.noteFileNulls row).mergeFileExtrema other row) merge extraStats
    rw [Option.elim_some, same]
    exact merged.of_same rfl rfl ⟨rfl, rfl⟩ ⟨rfl, rfl⟩

end

end GlobalColumnStats

/-! ## Bounds kept as optional texts -/

section

variable (other : OtherScalarOrder) (scalarType : CatalogScalarType)

/-- The lower of two texts; a text alone is the lowest. -/
def lowerText (current : Option String) (value : String) : Option String :=
  if current.all fun current => compareTypedScalars other scalarType value current == some .lt then some value
  else current

def raiseText (current : Option String) (value : String) : Option String :=
  if current.all fun current => compareTypedScalars other scalarType value current == some .gt then some value
  else current

/-- The shape in which the global statistics keep optional texts. -/
def optionalStats (containsNull : Bool) (minValue maxValue : Option String) (invalidExtrema : Bool) :
    GlobalColumnStats where
  scalarType := scalarType
  hasContainsNull := true
  containsNull := containsNull
  hasMin := minValue.isSome
  minValue := minValue.getD ""
  hasMax := maxValue.isSome
  maxValue := maxValue.getD ""
  invalidExtrema := invalidExtrema

variable {containsNull : Bool} {minValue maxValue : Option String} {invalidExtrema : Bool}

theorem optionalStats_lowerText (value : String) :
    optionalStats scalarType containsNull (lowerText other scalarType minValue value) maxValue invalidExtrema =
      (optionalStats scalarType containsNull minValue maxValue invalidExtrema).lowerMin other value := by
  rw [lowerText, GlobalColumnStats.lowerMin]
  cases minValue with
  | none => simp only [optionalStats, Option.all_none, Option.isSome_none, Bool.not_false, Bool.true_or, if_true,
      Option.isSome_some, Option.getD_some]
  | some current =>
    simp only [optionalStats, Option.all_some, Option.isSome_some, Option.getD_some, Bool.not_true, Bool.false_or]
    split_ifs <;> rfl

theorem optionalStats_raiseText (value : String) :
    optionalStats scalarType containsNull minValue (raiseText other scalarType maxValue value) invalidExtrema =
      (optionalStats scalarType containsNull minValue maxValue invalidExtrema).raiseMax other value := by
  rw [raiseText, GlobalColumnStats.raiseMax]
  cases maxValue with
  | none => simp only [optionalStats, Option.all_none, Option.isSome_none, Bool.not_false, Bool.true_or, if_true,
      Option.isSome_some, Option.getD_some]
  | some current =>
    simp only [optionalStats, Option.all_some, Option.isSome_some, Option.getD_some, Bool.not_true, Bool.false_or]
    split_ifs <;> rfl

variable {scalarType} {extrema : Extrema ScalarValue}

/-- The texts that are kept denote the bounds that were tracked. -/
theorem optionalStats_bounds
    (tracks : (optionalStats scalarType containsNull minValue maxValue invalidExtrema).Tracks extrema) :
    (invalidExtrema = true ↔ extrema = .unknowable) ∧
      minValue.map (scalarValue scalarType) = extrema.range.map (some ·.1) ∧
      maxValue.map (scalarValue scalarType) = extrema.range.map (some ·.2) := by
  have absent : ∀ {text : Option String}, text.isSome = false → text = none := fun missing =>
    Option.isNone_iff_eq_none.mp (Option.isSome_eq_false_iff.mp missing)
  match extrema with
  | .unknowable =>
    obtain ⟨invalid, noMin, noMax⟩ := tracks
    rw [absent noMin, absent noMax]
    exact ⟨⟨fun _ => rfl, fun _ => invalid⟩, rfl, rfl⟩
  | .known none =>
    obtain ⟨valid, noMin, noMax⟩ := tracks
    rw [absent noMin, absent noMax, show invalidExtrema = false from valid]
    exact ⟨⟨fun impossible => absurd impossible Bool.false_ne_true, fun impossible => nomatch impossible⟩, rfl, rfl⟩
  | .known (some range) =>
    obtain ⟨valid, hasMin, low, hasMax, high⟩ := tracks
    obtain ⟨minText, rfl⟩ := Option.isSome_iff_exists.mp hasMin
    obtain ⟨maxText, rfl⟩ := Option.isSome_iff_exists.mp hasMax
    rw [show invalidExtrema = false from valid]
    refine ⟨⟨fun impossible => absurd impossible Bool.false_ne_true, fun impossible => nomatch impossible⟩, ?_, ?_⟩
    · exact congrArg some low
    · exact congrArg some high

end

end DucklakeCatalog
