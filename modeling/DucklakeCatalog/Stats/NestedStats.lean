import DucklakeCatalog.KeyedStore.Grouped
import DucklakeCatalog.Stats.ColumnEvidence
import DucklakeCatalog.Stats.NestedText

/-! Statistics of the children of list and struct columns, from the texts of inline rows. -/
namespace DucklakeCatalog

open KeyedStore ScalarOrder

/-! ## Encoded values -/

/-- A value of an inline row: NULL, one that cannot be compared, or a text. -/
inductive InlineStatsValue where
  | null
  | opaqueValue
  | comparable (value : String)
  deriving DecidableEq, Repr

def hexNibble (byte : UInt8) : CatalogResult UInt8 :=
  if 48 ≤ byte ∧ byte ≤ 57 then .ok (byte - 48)
  else if 97 ≤ byte ∧ byte ≤ 102 then .ok (byte - 97 + 10)
  else if 65 ≤ byte ∧ byte ≤ 70 then .ok (byte - 65 + 10)
  else .error (.decode "inline stats payload has invalid hex")

def hexBytes : List UInt8 → CatalogResult (List UInt8)
  | high :: low :: rest => do
    let high ← hexNibble high
    let low ← hexNibble low
    return (high * 16 + low) :: (← hexBytes rest)
  | _ => .ok []

def hexDecode (value : String) : CatalogResult String :=
  let digits := value.toUTF8.data.toList
  if digits.length % 2 ≠ 0 then .error (.decode "inline stats payload has odd-length hex")
  else do
    match String.fromUTF8? ⟨(← hexBytes digits).toArray⟩ with
    | some text => return text
    | none => .error (.decode "inline stats payload is not utf8")

def decodeInlineStatsValue (encoded : String) : CatalogResult InlineStatsValue :=
  match encoded.toList with
  | ['n', ':'] => .ok .null
  | 'i' :: ':' :: value => .ok (.comparable (String.ofList value))
  | 's' :: ':' :: value => return .comparable (← hexDecode (String.ofList value))
  | 'v' :: ':' :: value => return .comparable (← hexDecode (String.ofList value))
  | 'x' :: ':' :: _ => .ok .opaqueValue
  | 'd' :: ':' :: _ => .ok .opaqueValue
  | ['b', ':', '0'] => .ok (.comparable "false")
  | ['b', ':', '1'] => .ok (.comparable "true")
  | _ => .error (.decode s!"inline stats payload has invalid value: {encoded}")

/-! ## Statistics of one column -/

structure LiveColumnStats where
  scalarType : CatalogScalarType := .unsupported
  nonNullCount : Nat := 0
  hasContainsNull : Bool := false
  containsNull : Bool := false
  minValue : Option String := none
  maxValue : Option String := none
  invalidExtrema : Bool := false
  deriving DecidableEq, Repr

structure InlineStatsChildColumn where
  columnId : ColumnId
  name : String
  scalarType : CatalogScalarType

structure InlineStatsColumn where
  columnType : String
  children : List InlineStatsChildColumn

namespace LiveColumnStats

def new (scalarType : CatalogScalarType) : LiveColumnStats := { scalarType }

def invalidateExtrema (stats : LiveColumnStats) : LiveColumnStats :=
  { stats with minValue := none, maxValue := none, invalidExtrema := true }

def accumulateNull (stats : LiveColumnStats) : LiveColumnStats :=
  { stats with hasContainsNull := true, containsNull := true }

def accumulateUnknown (stats : LiveColumnStats) : LiveColumnStats :=
  { stats with hasContainsNull := true, containsNull := true }.invalidateExtrema

def accumulateComparable (other : OtherScalarOrder) (stats : LiveColumnStats) (value : String) : LiveColumnStats :=
  let stats := { stats with hasContainsNull := true, nonNullCount := stats.nonNullCount + 1 }
  if stats.invalidExtrema || (compareTypedScalars other stats.scalarType value value).isNone then
    stats.invalidateExtrema
  else
    { stats with
      minValue := lowerText other stats.scalarType stats.minValue value
      maxValue := raiseText other stats.scalarType stats.maxValue value }

end LiveColumnStats

/-! ## Statistics of the children -/

abbrev InlineStats := OrderedMap ColumnId LiveColumnStats

section

variable (other : OtherScalarOrder)

/-- Change the statistics of a child, which are new when it has none. -/
def InlineStats.change (stats : InlineStats) (child : InlineStatsChildColumn)
    (change : LiveColumnStats → LiveColumnStats) : InlineStats :=
  stats.upsert child.columnId (.new child.scalarType) change

def accumulateInlineTextValue (stats : InlineStats) (column : InlineStatsChildColumn) (value : List Char) :
    InlineStats :=
  let value := trimmed value
  if isNullText value then InlineStats.change stats column .accumulateNull
  else InlineStats.change stats column (.accumulateComparable other · (String.ofList (unquoteInlineScalar value)))

namespace InlineStatsColumn

def typeName (column : InlineStatsColumn) : List Char := column.columnType.toList.map Char.toLower

def isList (column : InlineStatsColumn) : Bool :=
  column.typeName = "list".toList || "[]".toList.isSuffixOf column.typeName

def isStruct (column : InlineStatsColumn) : Bool :=
  column.typeName = "struct".toList || "struct(".toList.isPrefixOf column.typeName

end InlineStatsColumn

def accumulateStructField (fields : List (List Char × List Char)) (stats : InlineStats)
    (child : InlineStatsChildColumn) : InlineStats :=
  match fields.find? fun field => decide (field.1 = child.name.toList) with
  | some field => accumulateInlineTextValue other stats child field.2
  | none => InlineStats.change stats child .accumulateNull

def accumulateChildInlineStats (stats : InlineStats) (column : InlineStatsColumn) (encoded : String) :
    CatalogResult InlineStats :=
  if column.children = [] then .ok stats
  else do
    match ← decodeInlineStatsValue encoded with
    | .null => return column.children.foldl (fun stats child => InlineStats.change stats child .accumulateNull) stats
    | .opaqueValue =>
      return column.children.foldl (fun stats child => InlineStats.change stats child .accumulateUnknown) stats
    | .comparable value =>
      if column.isList then
        match column.children.head? with
        | some child =>
          return (parseInlineListValues value.toList).foldl (accumulateInlineTextValue other · child) stats
        | none => return stats
      else if column.isStruct then
        return column.children.foldl (accumulateStructField other (parseInlineStructValues value.toList)) stats
      else return stats

/-- The statistics after the values of a column in one row after another. -/
def childInlineStats (column : InlineStatsColumn) (encoded : List String) : CatalogResult InlineStats :=
  encoded.foldlM (fun stats value => accumulateChildInlineStats other stats column value) OrderedMap.empty

end

/-! ## Rows -/

/-- What a value denotes. -/
def ChildValue.scalar : ChildValue → ScalarValue
  | integer value => integerScalar value
  | text value => toLex (Sum.inr value)

/-- The values of a type. -/
def ChildValue.Fits : CatalogScalarType → ChildValue → Prop
  | .signedInteger bits, integer value => -2 ^ (bits - 1) ≤ value ∧ value < 2 ^ (bits - 1)
  | .unsignedInteger bits, integer value => 0 ≤ value ∧ value < 2 ^ bits
  | .text, text _ => True
  | _, _ => False

/-- Integers of the widths the catalog knows, or text. -/
def CatalogScalarType.IntegerOrText : CatalogScalarType → Prop
  | .signedInteger bits | .unsignedInteger bits => 8 ≤ bits ∧ bits ≤ 128
  | .text => True
  | _ => False

/-- The value of a list or struct column in one row; a struct gives a value for each of its children. -/
inductive NestedRow where
  | null
  | list (items : List (Option ChildValue))
  | struct (fields : ColumnId → Option ChildValue)

namespace NestedRow

/-- The values that the row holds for a child; the children of NULL are NULL. -/
def values (column : InlineStatsColumn) (child : InlineStatsChildColumn) : NestedRow → List (Option ChildValue)
  | null => [none]
  | list items => if column.children.head?.map InlineStatsChildColumn.columnId = some child.columnId then items else []
  | struct fields => [fields child.columnId]

def Typed (column : InlineStatsColumn) : NestedRow → Prop
  | null => True
  | list items => column.isList = true ∧
      ∀ child ∈ column.children.head?, ∀ value, some value ∈ items → value.Fits child.scalarType
  | struct fields => column.isList = false ∧ column.isStruct = true ∧
      ∀ child ∈ column.children, ∀ value ∈ fields child.columnId, value.Fits child.scalarType

def fieldTexts (column : InlineStatsColumn) (fields : ColumnId → Option ChildValue) :
    List (List Char × Option ChildValue) :=
  column.children.map fun child => (child.name.toList, fields child.columnId)

/-- What the row reads as when it is decoded. -/
def decoded (column : InlineStatsColumn) : NestedRow → InlineStatsValue
  | null => .null
  | list items => .comparable (String.ofList (renderList items))
  | struct fields => .comparable (String.ofList (renderStruct (fieldTexts column fields)))

end NestedRow

/-- A row and a text it is stored as. -/
structure EncodedRow (column : InlineStatsColumn) where
  encoded : String
  row : NestedRow
  typed : row.Typed column
  decodes : decodeInlineStatsValue encoded = .ok (row.decoded column)

/-- The statistics of a child bound its values in all rows, and know of its nulls. -/
structure LiveColumnStats.Sound (stats : LiveColumnStats) (scalarType : CatalogScalarType)
    (values : List (Option ChildValue)) : Prop where
  minimum : ∀ bound, stats.minValue = some bound → ∀ value, some value ∈ values →
    ∃ low ∈ scalarValue scalarType bound, low ≤ value.scalar
  maximum : ∀ bound, stats.maxValue = some bound → ∀ value, some value ∈ values →
    ∃ high ∈ scalarValue scalarType bound, value.scalar ≤ high
  nulls : stats.containsNull = false → none ∉ values

/-- Nulls, bounds and what these denote agree. -/
structure LiveColumnStats.SameFor (scalarType : CatalogScalarType) (left right : LiveColumnStats) : Prop where
  containsNull : right.containsNull = left.containsNull
  minimum : right.minValue.map (scalarValue scalarType) = left.minValue.map (scalarValue scalarType)
  maximum : right.maxValue.map (scalarValue scalarType) = left.maxValue.map (scalarValue scalarType)

namespace InlineStatsColumn

def valuesOf (column : InlineStatsColumn) (child : InlineStatsChildColumn) (rows : List (EncodedRow column)) :
    List (Option ChildValue) :=
  rows.flatMap fun row => row.row.values column child

/-- Whatever rows the column has, the statistics of its children are true of them, in any order. -/
def NestedStatsSound (other : OtherScalarOrder) (column : InlineStatsColumn) : Prop :=
  ∀ rows : List (EncodedRow column), ∃ stats, childInlineStats other column (rows.map (·.encoded)) = .ok stats ∧
    ∀ child ∈ column.children, ∀ live, stats.get? child.columnId = some live →
      live.Sound child.scalarType (column.valuesOf child rows) ∧
        ∀ reordered, rows.Perm reordered →
          ∃ again, childInlineStats other column (reordered.map (·.encoded)) = .ok again ∧
            ∃ same, again.get? child.columnId = some same ∧ live.SameFor child.scalarType same

/-- A list or a struct of integers and texts, whose children have ids of their own. -/
structure WellFormed (column : InlineStatsColumn) : Prop where
  nested : column.isList = true ∨ column.isStruct = true
  distinct : (column.children.map InlineStatsChildColumn.columnId).Nodup
  types : ∀ child ∈ column.children, child.scalarType.IntegerOrText

/-- No child is read under the name of a later one. -/
def Unshadowed (column : InlineStatsColumn) : Prop :=
  column.children.Pairwise fun earlier later => cutName earlier.name.toList ≠ later.name.toList

end InlineStatsColumn

/-! ## Values of a type -/

theorem splitSign_integerText (value : Int) :
    splitSign (trimmed (String.ofList (integerText value)).toList) =
      (decide (value < 0), Nat.toDigits 10 value.natAbs) := by
  have isNumeral : IsNumeral (Nat.toDigits 10 value.natAbs) :=
    ⟨Nat.toDigits_ne_nil, fun ch member => Nat.isDigit_of_mem_toDigits (by decide) (by decide) member⟩
  let spelling : IntegerSpelling :=
    ⟨[], if value < 0 then .minus else .absent, Nat.toDigits 10 value.natAbs, [], by simp, isNumeral⟩
  have spelled : spelling.text = integerText value := by
    rw [IntegerSpelling.text, List.append_nil, List.nil_append, integerText]
    by_cases negative : value < 0
    · simp only [spelling, negative, if_true]
      rfl
    · simp only [spelling, negative, if_false]
      rfl
  rw [String.toList_ofList, ← spelled, spelling.splitSign_trimmed]
  by_cases negative : value < 0
  · simp only [spelling, negative, if_true, decide_true]
    rfl
  · simp only [spelling, negative, if_false, decide_false]
    rfl

theorem parseInteger_integerText {value : Int} {bits : Nat} {signed : Bool} {limit : Nat}
    (limited : integerLimit bits signed (decide (value < 0)) = some limit) (fits : value.natAbs ≤ limit)
    (small : value.natAbs ≤ u128Max) :
    ∃ number, parseInteger (String.ofList (integerText value)) bits signed = some number ∧ number.value = value := by
  have digits : parseUnsignedDigits (Nat.toDigits 10 value.natAbs) = some value.natAbs := by
    rw [parseUnsignedDigits_eq_some, numeralValue, Nat.ofDigitChars_ten_toDigits]
    exact ⟨⟨Nat.toDigits_ne_nil, fun ch member => Nat.isDigit_of_mem_toDigits (by decide) (by decide) member⟩, rfl⟩
  refine ⟨⟨decide (value < 0) && decide (value.natAbs ≠ 0), value.natAbs⟩, ?_, ?_⟩
  · rw [parseInteger, splitSign_integerText]
    simp only [digits, Option.filter_some, decide_eq_true small, if_true, bind, Option.bind_some, limited,
      Nat.not_lt.mpr fits, if_false]
  · rw [ExactInteger.value]
    by_cases negative : value < 0
    · have nonzero : value.natAbs ≠ 0 := by omega
      simp only [negative, nonzero, ne_eq, not_false_eq_true, decide_true, Bool.and_self, if_true]
      omega
    · simp only [negative, decide_false, Bool.false_and, Bool.false_eq_true, if_false]
      omega

theorem checkedShiftLeft128_of_lt {bits : Nat} (small : bits < 128) : checkedShiftLeft128 bits = some (2 ^ bits) :=
  if_pos small

theorem two_pow_le_u128Max {bits : Nat} (small : bits < 128) : 2 ^ bits ≤ u128Max := by
  have bound : 2 ^ bits ≤ 2 ^ 127 := Nat.pow_le_pow_right (by omega) (by omega)
  have wide : 2 ^ 127 ≤ u128Max := by decide
  exact bound.trans wide

variable {value : ChildValue} {values : List (Option ChildValue)}

/-- What is written for a value of the type denotes it. -/
theorem ChildValue.Fits.denotes {scalarType : CatalogScalarType} (known : scalarType.IntegerOrText)
    (fits : value.Fits scalarType) :
    scalarValue scalarType (String.ofList value.spelled) = some value.scalar := by
  cases scalarType with
  | signedInteger bits =>
    cases value with
    | text _ => exact fits.elim
    | integer value =>
      obtain ⟨lower, upper⟩ := fits
      have narrow : bits - 1 < 128 := by
        have := known.2
        omega
      have positive : 0 < 2 ^ (bits - 1) := Nat.two_pow_pos _
      have cast : ((2 ^ (bits - 1) : Nat) : Int) = 2 ^ (bits - 1) := by push_cast; rfl
      have limited : integerLimit bits true (decide (value < 0)) =
          some (if decide (value < 0) = true then 2 ^ (bits - 1) else 2 ^ (bits - 1) - 1) := by
        rw [integerLimit, if_pos rfl, checkedShiftLeft128_of_lt narrow]
        rfl
      have small := two_pow_le_u128Max narrow
      obtain ⟨number, parsed, same⟩ := parseInteger_integerText limited (by
        by_cases negative : value < 0
        · simp only [negative, decide_true, if_true]
          omega
        · simp only [negative, decide_false, Bool.false_eq_true, if_false]
          omega) (by omega)
      exact (congrArg (Option.map _) parsed).trans (congrArg (fun value => some (integerScalar value)) same)
  | unsignedInteger bits =>
    cases value with
    | text _ => exact fits.elim
    | integer value =>
      obtain ⟨lower, upper⟩ := fits
      have nonnegative : decide (value < 0) = false := decide_eq_false (not_lt.mpr lower)
      have cast : ((2 ^ bits : Nat) : Int) = 2 ^ bits := by push_cast; rfl
      by_cases widest : bits = 128
      · have most : value.natAbs ≤ u128Max := by
          rw [widest] at upper
          rw [u128Max]
          omega
        obtain ⟨number, parsed, same⟩ := @parseInteger_integerText value bits false u128Max
          (by rw [nonnegative, integerLimit, if_neg Bool.false_ne_true, if_neg Bool.false_ne_true, if_pos widest])
          most most
        exact (congrArg (Option.map _) parsed).trans (congrArg (fun value => some (integerScalar value)) same)
      · have narrow : bits < 128 := by
          have := known.2
          omega
        have small := two_pow_le_u128Max narrow
        obtain ⟨number, parsed, same⟩ := @parseInteger_integerText value bits false (2 ^ bits - 1)
          (by
            rw [nonnegative, integerLimit, if_neg Bool.false_ne_true, if_neg Bool.false_ne_true, if_neg widest,
              checkedShiftLeft128_of_lt narrow]
            rfl)
          (by omega) (by omega)
        exact (congrArg (Option.map _) parsed).trans (congrArg (fun value => some (integerScalar value)) same)
  | text =>
    cases value with
    | integer _ => exact fits.elim
    | text value => exact congrArg (fun text => some (toLex (Sum.inr text))) String.ofList_toList
  | decimal | float32 | float64 | timestamp | timestampTz | unsupported => exact known.elim

theorem CatalogScalarType.IntegerOrText.isExact {scalarType : CatalogScalarType} (known : scalarType.IntegerOrText) :
    scalarType.isExact = true := by
  cases scalarType with
  | signedInteger _ | unsignedInteger _ | text => rfl
  | decimal | float32 | float64 | timestamp | timestampTz | unsupported => exact known.elim

/-! ## What the statistics of a child follow -/

def itemEvidence : Option ChildValue → Evidence ScalarValue
  | none => .silent
  | some value => .bounds value.scalar value.scalar

namespace LiveColumnStats

variable (other : OtherScalarOrder)

/-- One value of a child, as the rows hold it. -/
def accumulateValue (stats : LiveColumnStats) : Option ChildValue → LiveColumnStats
  | none => stats.accumulateNull
  | some value => stats.accumulateComparable other (String.ofList value.spelled)

def asGlobal (stats : LiveColumnStats) : GlobalColumnStats :=
  optionalStats stats.scalarType stats.containsNull stats.minValue stats.maxValue stats.invalidExtrema

theorem accumulateComparable_keeps (stats : LiveColumnStats) (value : String) :
    (stats.accumulateComparable other value).scalarType = stats.scalarType ∧
      (stats.accumulateComparable other value).containsNull = stats.containsNull := by
  simp only [accumulateComparable]
  split_ifs <;> exact ⟨rfl, rfl⟩

theorem accumulateValue_keeps (stats : LiveColumnStats) (value : Option ChildValue) :
    (stats.accumulateValue other value).scalarType = stats.scalarType ∧
      (stats.accumulateValue other value).containsNull = (stats.containsNull || value.isNone) := by
  cases value with
  | none => exact ⟨rfl, (Bool.or_true _).symm⟩
  | some value =>
    obtain ⟨sameType, sameNulls⟩ := accumulateComparable_keeps other stats (String.ofList value.spelled)
    exact ⟨sameType, sameNulls.trans (Bool.or_false _).symm⟩

theorem accumulateComparable_tracks {stats : LiveColumnStats} (exact : stats.scalarType.isExact = true)
    {extrema : Extrema ScalarValue} (tracks : stats.asGlobal.Tracks extrema) {value : String} {scalar : ScalarValue}
    (denotes : scalarValue stats.scalarType value = some scalar) :
    (stats.accumulateComparable other value).asGlobal.Tracks (extrema.step (.bounds scalar scalar)) := by
  have comparable : (compareTypedScalars other stats.scalarType value value).isNone = false := by
    rw [compareTypedScalars_eq exact other, denotes]
    rfl
  simp only [accumulateComparable]
  rw [comparable, Bool.or_false]
  by_cases invalid : stats.invalidExtrema = true
  · obtain rfl := GlobalColumnStats.tracks_unknowable tracks invalid
    rw [if_pos invalid]
    exact ⟨rfl, rfl, rfl⟩
  · rw [if_neg invalid]
    have extended := @GlobalColumnStats.extend_tracks stats.asGlobal extrema exact other tracks
      (Bool.eq_false_iff.mpr invalid) value value scalar scalar denotes denotes
    rw [asGlobal, ← optionalStats_lowerText, ← optionalStats_raiseText] at extended
    exact extended

theorem accumulateValue_tracks {stats : LiveColumnStats} (known : stats.scalarType.IntegerOrText)
    {extrema : Extrema ScalarValue} (tracks : stats.asGlobal.Tracks extrema) {value : Option ChildValue}
    (fits : ∀ held ∈ value, held.Fits stats.scalarType) :
    (stats.accumulateValue other value).asGlobal.Tracks (extrema.step (itemEvidence value)) := by
  cases value with
  | none =>
    have same : extrema.step (itemEvidence none) = extrema := by cases extrema <;> rfl
    rw [same]
    exact tracks.of_same rfl rfl ⟨rfl, rfl⟩ ⟨rfl, rfl⟩
  | some value => exact accumulateComparable_tracks other known.isExact tracks ((fits value rfl).denotes known)

theorem foldl_accumulateValue_keeps (values : List (Option ChildValue)) (stats : LiveColumnStats) :
    (values.foldl (accumulateValue other) stats).scalarType = stats.scalarType ∧
      (values.foldl (accumulateValue other) stats).containsNull = (stats.containsNull || values.any Option.isNone) := by
  induction values generalizing stats with
  | nil => exact ⟨rfl, (Bool.or_false _).symm⟩
  | cons value rest ih =>
    obtain ⟨sameType, sameNulls⟩ := ih (stats.accumulateValue other value)
    obtain ⟨oneType, oneNulls⟩ := accumulateValue_keeps other stats value
    exact ⟨sameType.trans oneType, by rw [List.foldl_cons, sameNulls, oneNulls, List.any_cons, Bool.or_assoc]⟩

theorem foldl_accumulateValue_tracks (values : List (Option ChildValue)) {stats : LiveColumnStats}
    (known : stats.scalarType.IntegerOrText) {extrema : Extrema ScalarValue} (tracks : stats.asGlobal.Tracks extrema)
    (fits : ∀ value, some value ∈ values → value.Fits stats.scalarType) :
    (values.foldl (accumulateValue other) stats).asGlobal.Tracks (extrema.run (values.map itemEvidence)) := by
  induction values generalizing stats extrema with
  | nil => exact tracks
  | cons value rest ih =>
    have sameType := (accumulateValue_keeps other stats value).1
    have one := accumulateValue_tracks other known tracks fun held same =>
      fits held (Option.mem_def.mp same ▸ List.mem_cons_self)
    exact ih (sameType.symm ▸ known) one fun held member => sameType.symm ▸ fits held (List.mem_cons_of_mem _ member)

theorem remembered_items (values : List (Option ChildValue)) : .forget ∉ values.map itemEvidence := by
  intro forgets
  obtain ⟨value, _, same⟩ := List.mem_map.mp forgets
  cases value with
  | none => cases same
  | some value => cases same

/-- Statistics that took all values in are true of them. -/
theorem foldl_accumulateValue_sound {scalarType : CatalogScalarType}
    (known : scalarType.IntegerOrText) (fits : ∀ value, some value ∈ values → value.Fits scalarType) :
    (values.foldl (accumulateValue other) (new scalarType)).Sound scalarType values := by
  obtain ⟨sameType, nulls⟩ := foldl_accumulateValue_keeps other values (new scalarType)
  have tracks := @foldl_accumulateValue_tracks other values (new scalarType) known (.known none) ⟨rfl, rfl, rfl⟩ fits
  obtain ⟨_, lowest, highest⟩ := optionalStats_bounds tracks
  rw [sameType] at lowest highest
  have covers : ∀ range, ((Extrema.known none).run (values.map itemEvidence)).range = some range → ∀ value,
      some value ∈ values → range.1 ≤ value.scalar ∧ value.scalar ≤ range.2 := by
    intro range reached value member
    cases ends : (Extrema.known none).run (values.map itemEvidence) with
    | unknowable =>
      rw [ends] at reached
      cases reached
    | known last =>
      rw [ends] at reached
      obtain rfl : last = some range := reached
      exact (Extrema.run_covers (remembered_items values) ends).1 _ _ (List.mem_map_of_mem (f := itemEvidence) member)
  constructor
  · intro bound given value member
    rw [given, Option.map_some, eq_comm, Option.map_eq_some_iff] at lowest
    obtain ⟨range, reached, denotes⟩ := lowest
    exact ⟨range.1, denotes.symm, (covers range reached value member).1⟩
  · intro bound given value member
    rw [given, Option.map_some, eq_comm, Option.map_eq_some_iff] at highest
    obtain ⟨range, reached, denotes⟩ := highest
    exact ⟨range.2, denotes.symm, (covers range reached value member).2⟩
  · intro noNulls member
    rw [nulls, Bool.or_eq_false_iff, List.any_eq_false] at noNulls
    exact noNulls.2 none member rfl

/-- The order of the values makes no difference to what the statistics say. -/
theorem foldl_accumulateValue_same {reordered : List (Option ChildValue)} (moved : values.Perm reordered)
    {scalarType : CatalogScalarType} (known : scalarType.IntegerOrText)
    (fits : ∀ value, some value ∈ values → value.Fits scalarType) :
    (values.foldl (accumulateValue other) (new scalarType)).SameFor scalarType
      (reordered.foldl (accumulateValue other) (new scalarType)) := by
  obtain ⟨sameType, nulls⟩ := foldl_accumulateValue_keeps other values (new scalarType)
  obtain ⟨againType, againNulls⟩ := foldl_accumulateValue_keeps other reordered (new scalarType)
  have tracks := @foldl_accumulateValue_tracks other values (new scalarType) known (.known none) ⟨rfl, rfl, rfl⟩ fits
  have again := @foldl_accumulateValue_tracks other reordered (new scalarType) known (.known none) ⟨rfl, rfl, rfl⟩
    fun value member => fits value (moved.mem_iff.mpr member)
  rw [← Extrema.run_perm (moved.map itemEvidence) fun _ _ mixed => remembered_items values mixed.1] at again
  obtain ⟨_, lowest, highest⟩ := optionalStats_bounds tracks
  obtain ⟨_, lowestAgain, highestAgain⟩ := optionalStats_bounds again
  rw [sameType] at lowest highest
  rw [againType] at lowestAgain highestAgain
  refine ⟨?_, lowestAgain.trans lowest.symm, highestAgain.trans highest.symm⟩
  rw [nulls, againNulls, moved.any_eq]

end LiveColumnStats

/-! ## The statistics that a row changes -/

variable {child : InlineStatsChildColumn}

namespace InlineStats

theorem get?_change (stats : InlineStats) (child : InlineStatsChildColumn) (change : LiveColumnStats → LiveColumnStats)
    (columnId : ColumnId) :
    (InlineStats.change stats child change).get? columnId =
      if columnId = child.columnId then
        some (change ((stats.get? child.columnId).getD (.new child.scalarType)))
      else stats.get? columnId := OrderedMap.get?_insert _ _ _ _

/-- Children with ids of their own are changed each for itself. -/
theorem get?_foldl_change (change : InlineStatsChildColumn → LiveColumnStats → LiveColumnStats)
    {children : List InlineStatsChildColumn} (distinct : (children.map InlineStatsChildColumn.columnId).Nodup)
    (stats : InlineStats) (member : child ∈ children) :
    (children.foldl (fun stats child => InlineStats.change stats child (change child)) stats).get? child.columnId =
      some (change child ((stats.get? child.columnId).getD (.new child.scalarType))) := by
  have untouched : ∀ (children : List InlineStatsChildColumn) (stats : InlineStats) (columnId : ColumnId),
      columnId ∉ children.map InlineStatsChildColumn.columnId →
        (children.foldl (fun stats child => InlineStats.change stats child (change child)) stats).get? columnId =
          stats.get? columnId := by
    intro children
    induction children with
    | nil => exact fun _ _ _ => rfl
    | cons first rest ih =>
      intro stats columnId missed
      rw [List.map_cons, List.mem_cons, not_or] at missed
      rw [List.foldl_cons, ih _ _ missed.2, get?_change, if_neg missed.1]
  induction children generalizing stats with
  | nil => cases member
  | cons first rest ih =>
    obtain ⟨notLater, distinctRest⟩ := List.nodup_cons.mp distinct
    rw [List.foldl_cons]
    rcases List.mem_cons.mp member with rfl | later
    · rw [untouched rest _ _ notLater, get?_change, if_pos rfl]
    · have different : child.columnId ≠ first.columnId := by
        intro same
        exact notLater (same ▸ List.mem_map_of_mem later)
      rw [ih distinctRest _ later, get?_change, if_neg different]

end InlineStats

section

variable (other : OtherScalarOrder)

/-- The statistics of a child after one more value; the first value makes them. -/
def takeIn (scalarType : CatalogScalarType) (held : Option LiveColumnStats) (value : Option ChildValue) :
    Option LiveColumnStats :=
  some ((held.getD (.new scalarType)).accumulateValue other value)

theorem foldl_takeIn_some (scalarType : CatalogScalarType) (values : List (Option ChildValue))
    (held : LiveColumnStats) :
    values.foldl (takeIn other scalarType) (some held) =
      some (values.foldl (LiveColumnStats.accumulateValue other) held) := by
  induction values generalizing held with
  | nil => rfl
  | cons value rest ih => exact ih _

theorem foldl_takeIn_none {scalarType : CatalogScalarType} {live : LiveColumnStats} :
    values.foldl (takeIn other scalarType) none = some live ↔
      values ≠ [] ∧ live = values.foldl (LiveColumnStats.accumulateValue other) (.new scalarType) := by
  cases values with
  | nil =>
    constructor
    · intro impossible
      cases impossible
    · exact fun absent => absurd rfl absent.1
  | cons value rest =>
    rw [List.foldl_cons, takeIn, Option.getD_none, foldl_takeIn_some, Option.some.injEq, List.foldl_cons, eq_comm]
    exact (and_iff_right (List.cons_ne_nil _ _)).symm

/-- What one text does to the statistics of a child. -/
def textEffect (value : List Char) (live : LiveColumnStats) : LiveColumnStats :=
  if isNullText (trimmed value) then live.accumulateNull
  else live.accumulateComparable other (String.ofList (unquoteInlineScalar (trimmed value)))

theorem accumulateInlineTextValue_eq (stats : InlineStats) (child : InlineStatsChildColumn) (value : List Char) :
    accumulateInlineTextValue other stats child value = InlineStats.change stats child (textEffect other value) := by
  simp only [accumulateInlineTextValue]
  by_cases null : isNullText (trimmed value) = true
  · have effect : textEffect other value = .accumulateNull := funext fun _ => if_pos null
    rw [if_pos null, effect]
  · have effect : textEffect other value =
        (.accumulateComparable other · (String.ofList (unquoteInlineScalar (trimmed value)))) :=
      funext fun _ => if_neg null
    rw [if_neg null, effect]

theorem textEffect_renderItem (value : Option ChildValue) (live : LiveColumnStats) :
    textEffect other (renderItem value) live = live.accumulateValue other value := by
  rw [textEffect, (renderItem_reads value).2.2]
  cases value with
  | none => exact if_pos rfl
  | some value =>
    obtain ⟨_, notNull, _, reads⟩ := value.render_reads
    rw [renderItem, notNull, if_neg Bool.false_ne_true, reads]
    rfl

/-- What the fields of a struct do to the statistics of a child. -/
def fieldEffect (fields : List (List Char × List Char)) (child : InlineStatsChildColumn) (live : LiveColumnStats) :
    LiveColumnStats :=
  match fields.find? fun field => decide (field.1 = child.name.toList) with
  | some field => textEffect other field.2 live
  | none => live.accumulateNull

theorem accumulateStructField_eq (fields : List (List Char × List Char)) (stats : InlineStats)
    (child : InlineStatsChildColumn) :
    accumulateStructField other fields stats child =
      InlineStats.change stats child (fieldEffect other fields child) := by
  rw [accumulateStructField]
  cases found : fields.find? fun field => decide (field.1 = child.name.toList) with
  | none =>
    have effect : fieldEffect other fields child = .accumulateNull := by
      funext live
      rw [fieldEffect, found]
    rw [effect]
  | some field =>
    have effect : fieldEffect other fields child = textEffect other field.2 := by
      funext live
      rw [fieldEffect, found]
    rw [effect]
    exact accumulateInlineTextValue_eq other stats child field.2

end

/-! ## Fields by their names -/

theorem mem_of_mem_trimmed {ch : Char} {text : List Char} (member : ch ∈ trimmed text) : ch ∈ text := by
  obtain ⟨before, after, padded, _⟩ := exists_padded text
  rw [padded]
  exact List.mem_append_left _ (List.mem_append_right _ member)

theorem not_mem_cutName (name : List Char) : ':' ∉ cutName name := by
  intro member
  have inTrimmed : ':' ∈ trimmed (trimmed ((quoted name).takeWhile (· ≠ ':'))) := by
    rw [cutName, unquoteInlineScalar] at member
    split_ifs at member
    · exact List.mem_of_mem_tail (List.mem_of_mem_dropLast (mem_undoubled member))
    · exact member
  have cut := List.mem_takeWhile_imp (mem_of_mem_trimmed (mem_of_mem_trimmed inTrimmed))
  exact of_decide_eq_true cut rfl

/-- The text that a field is read with. -/
def fieldText (field : List Char × Option ChildValue) : List Char :=
  ((parseInlineStructField (renderField field)).map Prod.snd).getD []

theorem fieldText_spec (name : List Char) (value : Option ChildValue) :
    parseInlineStructField (renderField (name, value)) = some (cutName name, fieldText (name, value)) ∧
      (':' ∉ name → fieldText (name, value) = renderItem value) ∧
      (':' ∈ name → quoteMark ∈ fieldText (name, value)) := by
  obtain ⟨text, reads, whole, cut⟩ := parseInlineStructField_renderField name value
  have same : fieldText (name, value) = text := by
    rw [fieldText, reads]
    rfl
  rw [same]
  exact ⟨reads, whole, cut⟩

theorem parseInlineStructValues_fields (fields : List (List Char × Option ChildValue)) :
    parseInlineStructValues (renderStruct fields) = fields.map fun field => (cutName field.1, fieldText field) := by
  rw [parseInlineStructValues_renderStruct, List.filterMap_map, ← List.filterMap_eq_map]
  exact List.filterMap_congr fun field _ => (fieldText_spec field.1 field.2).1

/-- The first child that is read under the name of another. -/
def readUnder (column : InlineStatsColumn) (child : InlineStatsChildColumn) : Option InlineStatsChildColumn :=
  column.children.find? fun earlier => decide (cutName earlier.name.toList = child.name.toList)

theorem find_fields (column : InlineStatsColumn) (fields : ColumnId → Option ChildValue)
    (child : InlineStatsChildColumn) :
    (parseInlineStructValues (renderStruct (NestedRow.fieldTexts column fields))).find?
        (fun field => decide (field.1 = child.name.toList)) =
      (readUnder column child).map fun earlier =>
        (cutName earlier.name.toList, fieldText (earlier.name.toList, fields earlier.columnId)) := by
  rw [parseInlineStructValues_fields, NestedRow.fieldTexts, List.map_map, List.find?_map, readUnder]
  simp only [Function.comp_def]

theorem readUnder_of_colon (column : InlineStatsColumn)
    (colon : ':' ∈ child.name.toList) : readUnder column child = none := by
  rw [readUnder, List.find?_eq_none]
  intro earlier _ same
  exact not_mem_cutName earlier.name.toList (of_decide_eq_true same ▸ colon)

theorem readUnder_of_unshadowed {column : InlineStatsColumn} (unshadowed : column.Unshadowed)
    (member : child ∈ column.children) (whole : ':' ∉ child.name.toList) :
    readUnder column child = some child := by
  obtain ⟨before, after, split⟩ := List.append_of_mem member
  rw [InlineStatsColumn.Unshadowed, split, List.pairwise_append] at unshadowed
  have earlier : before.find? (fun earlier => decide (cutName earlier.name.toList = child.name.toList)) = none := by
    rw [List.find?_eq_none]
    intro other listed same
    exact unshadowed.2.2 other listed child List.mem_cons_self (of_decide_eq_true same)
  rw [readUnder, split, List.find?_append, earlier, Option.none_or, List.find?_cons_of_pos]
  exact decide_eq_true (cutName_whole whole)

/-! ## Rows one after another -/

/-- The values that are read for a child; a struct field whose name has a colon is never found. -/
def NestedRow.reported (column : InlineStatsColumn) (child : InlineStatsChildColumn) (row : NestedRow) :
    List (Option ChildValue) :=
  match row with
  | struct _ => if ':' ∈ child.name.toList then [none] else row.values column child
  | row => row.values column child

theorem foldl_items (other : OtherScalarOrder) (items : List (Option ChildValue)) (first : InlineStatsChildColumn)
    (stats : InlineStats) (columnId : ColumnId) :
    ((items.map renderItem).foldl (accumulateInlineTextValue other · first) stats).get? columnId =
      if columnId = first.columnId then items.foldl (takeIn other first.scalarType) (stats.get? first.columnId)
      else stats.get? columnId := by
  induction items generalizing stats with
  | nil =>
    by_cases same : columnId = first.columnId
    · rw [if_pos same, same]
      rfl
    · rw [if_neg same]
      rfl
  | cons value rest ih =>
    rw [List.map_cons, List.foldl_cons, ih, accumulateInlineTextValue_eq, InlineStats.get?_change, if_pos rfl,
      InlineStats.get?_change, textEffect_renderItem]
    by_cases same : columnId = first.columnId
    · rw [if_pos same, if_pos same]
      rfl
    · rw [if_neg same, if_neg same, if_neg same]

section

variable {column : InlineStatsColumn} (wellFormed : column.WellFormed) (other : OtherScalarOrder)

include wellFormed

/-- A struct changes the statistics of every child by the field that is found for it. -/
theorem accumulateChildInlineStats_struct {row : EncodedRow column} {fields : ColumnId → Option ChildValue}
    (isFields : row.row = .struct fields) (stats : InlineStats) :
    ∃ next, accumulateChildInlineStats other stats column row.encoded = .ok next ∧
      ∀ child ∈ column.children, next.get? child.columnId =
        some (fieldEffect other (parseInlineStructValues (renderStruct (NestedRow.fieldTexts column fields))) child
          ((stats.get? child.columnId).getD (.new child.scalarType))) := by
  by_cases empty : column.children = []
  · refine ⟨stats, if_pos empty, fun child member => ?_⟩
    rw [empty] at member
    cases member
  obtain ⟨encoded, _, typed, decodes⟩ := row
  obtain rfl : _ = NestedRow.struct fields := isFields
  obtain ⟨notList, isStruct, _⟩ := typed
  simp only [accumulateChildInlineStats, empty, if_false, decodes, bind, Except.bind, NestedRow.decoded, notList,
    isStruct, Bool.false_eq_true, if_true, String.toList_ofList]
  have steps : accumulateStructField other
        (parseInlineStructValues (renderStruct (NestedRow.fieldTexts column fields))) =
      fun stats child => InlineStats.change stats child (fieldEffect other
        (parseInlineStructValues (renderStruct (NestedRow.fieldTexts column fields))) child) := by
    funext stats child
    exact accumulateStructField_eq other _ stats child
  refine ⟨_, rfl, fun child member => ?_⟩
  rw [steps, InlineStats.get?_foldl_change _ wellFormed.distinct stats member]

/-- A row whose fields are found under their own names is taken in child by child. -/
theorem accumulateChildInlineStats_takes (unshadowed : column.isList = true ∨ column.Unshadowed)
    (row : EncodedRow column) (stats : InlineStats) :
    ∃ next, accumulateChildInlineStats other stats column row.encoded = .ok next ∧
      ∀ child ∈ column.children, next.get? child.columnId =
        (row.row.reported column child).foldl (takeIn other child.scalarType) (stats.get? child.columnId) := by
  by_cases empty : column.children = []
  · refine ⟨stats, if_pos empty, fun child member => ?_⟩
    rw [empty] at member
    cases member
  obtain ⟨encoded, row, typed, decodes⟩ := row
  cases row with
  | null =>
    simp only [accumulateChildInlineStats, empty, if_false, decodes, bind, Except.bind]
    refine ⟨_, rfl, fun child member => ?_⟩
    exact InlineStats.get?_foldl_change (fun _ => LiveColumnStats.accumulateNull) wellFormed.distinct stats member
  | list items =>
    obtain ⟨isList, _⟩ := typed
    obtain ⟨first, rest, split⟩ := List.exists_cons_of_ne_nil empty
    simp only [accumulateChildInlineStats, decodes, bind, Except.bind, NestedRow.decoded, isList, if_true, split,
      List.head?_cons, String.toList_ofList, parseInlineListValues_renderList]
    refine ⟨_, rfl, fun child member => ?_⟩
    rw [foldl_items]
    simp only [NestedRow.reported, NestedRow.values, split, List.head?_cons, Option.map_some, Option.some.injEq]
    by_cases same : child.columnId = first.columnId
    · have isFirst : child = first := by
        have distinct := wellFormed.distinct
        rw [split, List.map_cons, List.nodup_cons] at distinct
        rcases List.mem_cons.mp member with isFirst | later
        · exact isFirst
        · exact absurd (same ▸ List.mem_map_of_mem later) distinct.1
      rw [if_pos same, if_pos same.symm, isFirst]
    · rw [if_neg same, if_neg (Ne.symm same)]
      rfl
  | struct fields =>
    have unshadowed : column.Unshadowed := by
      rcases unshadowed with isList | unshadowed
      · rw [typed.1] at isList
        cases isList
      · exact unshadowed
    obtain ⟨next, applied, taken⟩ :=
      @accumulateChildInlineStats_struct column wellFormed other ⟨encoded, .struct fields, typed, decodes⟩ fields rfl
        stats
    refine ⟨next, applied, fun child member => ?_⟩
    rw [taken child member, fieldEffect, find_fields]
    by_cases colon : ':' ∈ child.name.toList
    · rw [readUnder_of_colon column colon]
      simp only [NestedRow.reported, colon, if_true]
      rfl
    · rw [readUnder_of_unshadowed unshadowed member colon]
      simp only [Option.map_some, (fieldText_spec _ _).2.1 colon, textEffect_renderItem, NestedRow.reported, colon,
        if_false, NestedRow.values, List.foldl_cons, List.foldl_nil, takeIn]

theorem childInlineStats_takes (unshadowed : column.isList = true ∨ column.Unshadowed)
    (rows : List (EncodedRow column)) :
    ∃ stats, childInlineStats other column (rows.map (·.encoded)) = .ok stats ∧
      ∀ child ∈ column.children, stats.get? child.columnId =
        (rows.flatMap fun row => row.row.reported column child).foldl (takeIn other child.scalarType) none := by
  have run : ∀ (rows : List (EncodedRow column)) (stats : InlineStats), ∃ last,
      (rows.map (·.encoded)).foldlM (fun stats value => accumulateChildInlineStats other stats column value) stats =
        .ok last ∧
      ∀ child ∈ column.children, last.get? child.columnId =
        (rows.flatMap fun row => row.row.reported column child).foldl (takeIn other child.scalarType)
          (stats.get? child.columnId) := by
    intro rows
    induction rows with
    | nil => exact fun stats => ⟨stats, rfl, fun _ _ => rfl⟩
    | cons row rest ih =>
      intro stats
      obtain ⟨next, applied, taken⟩ := accumulateChildInlineStats_takes wellFormed other unshadowed row stats
      obtain ⟨last, reached, later⟩ := ih next
      refine ⟨last, ?_, fun child member => ?_⟩
      · rw [List.map_cons, List.foldlM_cons, applied]
        exact reached
      · rw [later child member, taken child member, List.flatMap_cons, List.foldl_append]
  obtain ⟨last, reached, taken⟩ := run rows OrderedMap.empty
  exact ⟨last, reached, taken⟩

/-! ## When the statistics are sound -/

omit wellFormed in
/-- Statistics of NULL alone have no bounds. -/
theorem foldl_accumulateValue_nulls (nulls : ∀ value ∈ values, value = none) (stats : LiveColumnStats) :
    (values.foldl (LiveColumnStats.accumulateValue other) stats).minValue = stats.minValue ∧
      (values.foldl (LiveColumnStats.accumulateValue other) stats).maxValue = stats.maxValue := by
  induction values generalizing stats with
  | nil => exact ⟨rfl, rfl⟩
  | cons value rest ih =>
    obtain rfl := nulls value List.mem_cons_self
    exact ih (fun value member => nulls value (List.mem_cons_of_mem _ member)) _

theorem values_fit {row : NestedRow} (typed : row.Typed column)
    (member : child ∈ column.children) (held : some value ∈ row.values column child) :
    value.Fits child.scalarType := by
  cases row with
  | null => cases List.mem_singleton.mp held
  | list items =>
    rw [NestedRow.values] at held
    split_ifs at held with isFirst
    · obtain ⟨first, head, sameId⟩ := Option.map_eq_some_iff.mp isFirst
      obtain rfl := List.inj_on_of_nodup_map wellFormed.distinct (List.mem_of_mem_head? head) member sameId
      exact typed.2 first head value held
    · cases held
  | struct fields =>
    exact typed.2.2 child member value (Option.mem_def.mpr (List.mem_singleton.mp held).symm)

omit wellFormed in
/-- Either the values of a child are read, or nothing but NULL is. -/
theorem reported_cases (child : InlineStatsChildColumn) (rows : List (EncodedRow column)) :
    (rows.flatMap fun row => row.row.reported column child) = column.valuesOf child rows ∨
      ∀ value ∈ rows.flatMap fun row => row.row.reported column child, value = none := by
  by_cases cut : column.isList = false ∧ ':' ∈ child.name.toList
  · right
    intro value member
    obtain ⟨⟨_, row, typed, _⟩, _, listed⟩ := List.mem_flatMap.mp member
    cases row with
    | null => exact List.mem_singleton.mp listed
    | list items =>
      have isList := typed.1
      rw [cut.1] at isList
      cases isList
    | struct fields =>
      simp only [NestedRow.reported, cut.2, if_true] at listed
      exact List.mem_singleton.mp listed
  · left
    apply List.flatMap_congr
    rintro ⟨_, row, typed, _⟩ _
    cases row with
    | null => rfl
    | list items => rfl
    | struct fields =>
      have whole : ':' ∉ child.name.toList := fun colon => cut ⟨typed.1, colon⟩
      simp only [NestedRow.reported, whole, if_false]

theorem reported_fit (member : child ∈ column.children) (rows : List (EncodedRow column))
    (held : some value ∈ rows.flatMap fun row => row.row.reported column child) : value.Fits child.scalarType := by
  rcases reported_cases child rows with same | nulls
  · rw [same] at held
    obtain ⟨row, _, listed⟩ := List.mem_flatMap.mp held
    exact values_fit wellFormed row.typed member listed
  · cases nulls _ held

theorem nestedStatsSound_of_unshadowed (unshadowed : column.isList = true ∨ column.Unshadowed) :
    column.NestedStatsSound other := by
  intro rows
  obtain ⟨stats, reached, taken⟩ := childInlineStats_takes wellFormed other unshadowed rows
  refine ⟨stats, reached, fun child member live found => ?_⟩
  have known := wellFormed.types child member
  rw [taken child member] at found
  obtain ⟨nonempty, rfl⟩ := (foldl_takeIn_none other).mp found
  constructor
  · rcases reported_cases child rows with same | nulls
    · rw [same]
      exact LiveColumnStats.foldl_accumulateValue_sound other known fun value held =>
        reported_fit wellFormed member rows (same ▸ held)
    · obtain ⟨noMin, noMax⟩ := foldl_accumulateValue_nulls other nulls (.new child.scalarType)
      refine ⟨fun bound given => ?_, fun bound given => ?_, fun noNulls => ?_⟩
      · rw [noMin] at given
        cases given
      · rw [noMax] at given
        cases given
      · obtain ⟨value, listed⟩ := List.exists_mem_of_ne_nil _ nonempty
        rw [(LiveColumnStats.foldl_accumulateValue_keeps other _ _).2, Bool.or_eq_false_iff, List.any_eq_false]
          at noNulls
        exact absurd (by rw [nulls value listed]; rfl) (noNulls.2 value listed)
  · intro reordered moved
    obtain ⟨again, reachedAgain, takenAgain⟩ := childInlineStats_takes wellFormed other unshadowed reordered
    have movedValues : (rows.flatMap fun row => row.row.reported column child).Perm
        (reordered.flatMap fun row => row.row.reported column child) := moved.flatMap_right _
    refine ⟨again, reachedAgain, _, ?_, LiveColumnStats.foldl_accumulateValue_same other movedValues known fun value =>
      reported_fit wellFormed member rows⟩
    rw [takenAgain child member, foldl_takeIn_none]
    refine ⟨fun empty => nonempty ?_, rfl⟩
    exact (movedValues.trans (List.Perm.of_eq empty)).eq_nil

omit wellFormed in
/-- A value of the type. -/
def sampleValue : CatalogScalarType → ChildValue
  | .text => .text ""
  | _ => .integer 0

omit wellFormed in
theorem sampleValue_fits {scalarType : CatalogScalarType} (known : scalarType.IntegerOrText) :
    (sampleValue scalarType).Fits scalarType := by
  cases scalarType with
  | signedInteger bits =>
    have positive : (0 : Int) < 2 ^ (bits - 1) := by positivity
    exact ⟨by omega, positive⟩
  | unsignedInteger bits =>
    have positive : (0 : Int) < 2 ^ bits := by positivity
    exact ⟨le_rfl, positive⟩
  | text => trivial
  | decimal | float32 | float64 | timestamp | timestampTz | unsupported => exact known.elim

omit wellFormed in
theorem decodeInlineStatsValue_plain (value : List Char) :
    decodeInlineStatsValue (String.ofList ('i' :: ':' :: value)) = .ok (.comparable (String.ofList value)) := by
  rw [decodeInlineStatsValue, String.toList_ofList]
  rfl

/-- The field read under the name of a later child, when that is not NULL and all others are. -/
theorem unshadowed_of_nestedStatsSound (sound : column.NestedStatsSound other) :
    column.isList = true ∨ column.Unshadowed := by
  by_contra shadowed
  rw [not_or, InlineStatsColumn.Unshadowed, List.pairwise_iff_forall_sublist] at shadowed
  obtain ⟨notList, shadowed⟩ := shadowed
  have isStruct := wellFormed.nested.resolve_left notList
  simp only [not_forall, not_not, exists_prop] at shadowed
  obtain ⟨earlier, later, pair, sameName⟩ := shadowed
  obtain ⟨front, back, split, inFront, inBack⟩ := List.cons_sublist_iff.mp pair
  have inBack : later ∈ back := List.singleton_sublist.mp inBack
  obtain ⟨first, foundFirst⟩ : ∃ first, front.find?
      (fun earlier => decide (cutName earlier.name.toList = later.name.toList)) = some first := by
    apply Option.isSome_iff_exists.mp
    rw [List.find?_isSome]
    exact ⟨earlier, inFront, decide_eq_true sameName⟩
  have readFirst : readUnder column later = some first := by
    rw [readUnder, split, List.find?_append, foundFirst, Option.some_or]
  have firstMember : first ∈ column.children := split ▸ List.mem_append_left _ (List.mem_of_find?_eq_some foundFirst)
  have laterMember : later ∈ column.children := split ▸ List.mem_append_right _ inBack
  have different : later.columnId ≠ first.columnId := by
    have distinct := wellFormed.distinct
    rw [split, List.map_append, List.nodup_append] at distinct
    exact fun same => distinct.2.2 _ (List.mem_map_of_mem (List.mem_of_find?_eq_some foundFirst)) _
      (List.mem_map_of_mem inBack) same.symm
  let fields : ColumnId → Option ChildValue := fun columnId =>
    if columnId = first.columnId then some (sampleValue first.scalarType) else none
  have laterNull : fields later.columnId = none := if_neg different
  have firstHeld : fields first.columnId = some (sampleValue first.scalarType) := if_pos rfl
  let row : EncodedRow column :=
    { encoded := String.ofList ('i' :: ':' :: renderStruct (NestedRow.fieldTexts column fields))
      row := .struct fields
      typed := by
        refine ⟨Bool.eq_false_iff.mpr notList, isStruct, fun child member value held => ?_⟩
        by_cases isFirst : child.columnId = first.columnId
        · obtain rfl := List.inj_on_of_nodup_map wellFormed.distinct member firstMember isFirst
          obtain rfl := Option.some.inj (firstHeld.symm.trans held)
          exact sampleValue_fits (wellFormed.types child member)
        · have absent : fields child.columnId = none := if_neg isFirst
          rw [absent] at held
          cases held
      decodes := decodeInlineStatsValue_plain _ }
  obtain ⟨stats, reached, each⟩ := sound [row]
  obtain ⟨next, applied, taken⟩ :=
    @accumulateChildInlineStats_struct column wellFormed other row fields rfl OrderedMap.empty
  have same : stats = next := by
    have once : childInlineStats other column [row.encoded] = .ok next := by
      rw [childInlineStats, List.foldlM_cons, applied]
      rfl
    exact Except.ok.inj (reached.symm.trans once)
  subst same
  obtain ⟨truth, _⟩ := each later laterMember _ (taken later laterMember)
  have notNull : isNullText (trimmed (fieldText (first.name.toList, fields first.columnId))) = false := by
    by_cases colon : ':' ∈ first.name.toList
    · exact isNullText_of_mark (mem_trimmed ((fieldText_spec _ _).2.2 colon) quoteMark_printed)
    · rw [(fieldText_spec _ _).2.1 colon, firstHeld, (renderItem_reads _).2.2]
      exact (sampleValue first.scalarType).render_reads.2.1
  refine truth.nulls ?_ ?_
  · rw [fieldEffect, find_fields, readFirst]
    simp only [Option.map_some, textEffect, notNull, Bool.false_eq_true, if_false]
    exact (LiveColumnStats.accumulateComparable_keeps other _ _).2
  · rw [InlineStatsColumn.valuesOf, List.flatMap_cons]
    apply List.mem_append_left
    rw [show row.row = .struct fields from rfl, NestedRow.values, laterNull]
    exact List.mem_singleton_self _

/-- The statistics of nested columns are sound for all rows exactly when the column is a list, or no child is read under
the name of a later one. -/
theorem nestedStatsSound_iff : column.NestedStatsSound other ↔ column.isList = true ∨ column.Unshadowed :=
  ⟨unshadowed_of_nestedStatsSound wellFormed other, nestedStatsSound_of_unshadowed wellFormed other⟩

end

/-! ## Two structs -/

/-- A struct of one number and one text. -/
def pointColumn : InlineStatsColumn where
  columnType := "STRUCT(x INTEGER, label VARCHAR)"
  children := [⟨2, "x:1", .signedInteger 32⟩, ⟨3, "label", .text⟩]

/-- Cut at its colon, the first name is the second one: a quote and a letter. -/
def shadowedColumn : InlineStatsColumn where
  columnType := "STRUCT"
  children := [⟨2, "a:b", .text⟩, ⟨3, "\x27a", .text⟩]

theorem nestedStatsSound_point : pointColumn.NestedStatsSound (fun _ _ _ => none) := by
  have wellFormed : pointColumn.WellFormed := by
    refine ⟨Or.inr (by decide +kernel), by decide +kernel, fun child member => ?_⟩
    rcases List.mem_pair.mp member with rfl | rfl
    · exact ⟨by decide, by decide⟩
    · trivial
  refine (nestedStatsSound_iff wellFormed _).mpr (Or.inr ?_)
  refine List.pairwise_pair.mpr ?_
  decide +kernel

/-- The text of the first field is taken for the second one, which is NULL. -/
theorem nestedStats_shadowed : ¬∀ (other : OtherScalarOrder) (column : InlineStatsColumn), column.WellFormed →
    column.NestedStatsSound other := by
  intro always
  have wellFormed : shadowedColumn.WellFormed := by
    refine ⟨Or.inr (by decide +kernel), by decide +kernel, fun child member => ?_⟩
    rcases List.mem_pair.mp member with rfl | rfl <;> trivial
  let fields : ColumnId → Option ChildValue := fun columnId => if columnId = 2 then some (.text "x") else none
  let row : EncodedRow shadowedColumn :=
    { encoded := "i:\x7b\x27a:b\x27: x, \x27\x27\x27a\x27: NULL\x7d"
      row := .struct fields
      typed := by
        refine ⟨by decide +kernel, by decide +kernel, fun child member value held => ?_⟩
        rcases List.mem_pair.mp member with rfl | rfl
        · obtain rfl := Option.some.inj held
          trivial
        · cases held
      decodes := by decide +kernel }
  obtain ⟨stats, reached, each⟩ := always (fun _ _ _ => none) shadowedColumn wellFormed [row]
  let live : LiveColumnStats :=
    { scalarType := .text, nonNullCount := 1, hasContainsNull := true, minValue := some "b\x27: x"
      maxValue := some "b\x27: x" }
  have evaluated : (childInlineStats (fun _ _ _ => none) shadowedColumn [row.encoded]).map (·.get? 3) =
      .ok (some live) := by decide +kernel
  rw [show childInlineStats (fun _ _ _ => none) shadowedColumn [row.encoded] = .ok stats from reached] at evaluated
  obtain ⟨truth, _⟩ := each ⟨3, "\x27a", .text⟩ (List.mem_cons_of_mem _ List.mem_cons_self) live
    (Except.ok.inj evaluated)
  exact truth.nulls rfl (List.mem_singleton_self _)

end DucklakeCatalog
