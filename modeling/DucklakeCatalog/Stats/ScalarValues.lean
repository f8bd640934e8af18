import DucklakeCatalog.ScalarOrder.Digits
import DucklakeCatalog.Stats.TypedScalar
import Mathlib.Data.Option.NAry
import Mathlib.Data.Sum.Order
import Mathlib.Data.String.Basic

/-! What the texts of integers, decimals and strings stand for. -/
namespace DucklakeCatalog

open ScalarOrder

def ExactInteger.value (number : ExactInteger) : Int :=
  if number.negative then -number.magnitude else number.magnitude

def ExactDecimal.value (number : ExactDecimal) : ℚ :=
  if number.negative then -scaledValue 10 number.digits number.power
  else scaledValue 10 number.digits number.power

abbrev ScalarValue := ℚ ⊕ₗ String

/-- The minimum of the linear order; a lexicographic sum of lattices has another one. -/
instance : Min ScalarValue := LinearOrder.toMin

instance : Max ScalarValue := LinearOrder.toMax

def integerScalar (value : Int) : ScalarValue := toLex (Sum.inl (value : ℚ))

/-- The value a text denotes in a column of the type. -/
def scalarValue (scalarType : CatalogScalarType) (text : String) : Option ScalarValue :=
  match scalarType with
  | .signedInteger bits => (parseInteger text bits true).map fun number => integerScalar number.value
  | .unsignedInteger bits => (parseInteger text bits false).map fun number => integerScalar number.value
  | .decimal => (ExactDecimal.parse text).map fun number => toLex (Sum.inl number.value)
  | .text => some (toLex (Sum.inr text))
  | .float32 | .float64 | .timestamp | .timestampTz | .unsupported => none

/-- Integers, decimals and text. -/
def CatalogScalarType.isExact : CatalogScalarType → Bool
  | .signedInteger _ | .unsignedInteger _ | .decimal | .text => true
  | .float32 | .float64 | .timestamp | .timestampTz | .unsupported => false

/-! ## Integers -/

/-- A parsed zero has no sign. -/
theorem parseInteger_signed {text : String} {bits : Nat} {signed : Bool} {number : ExactInteger}
    (parsed : parseInteger text bits signed = some number) (negative : number.negative = true) :
    0 < number.magnitude := by
  simp only [parseInteger, bind, Option.bind_eq_some_iff] at parsed
  obtain ⟨magnitude, -, limit, -, built⟩ := parsed
  split at built
  · cases built
  · obtain rfl := Option.some.inj built
    simp only [Bool.and_eq_true, decide_eq_true_eq] at negative
    exact Nat.pos_of_ne_zero negative.2

theorem compareInteger_eq {left right : ExactInteger} (leftSigned : left.negative = true → 0 < left.magnitude)
    (rightSigned : right.negative = true → 0 < right.magnitude) :
    compareInteger left right = compare left.value right.value := by
  obtain ⟨leftNegative, leftMagnitude⟩ := left
  obtain ⟨rightNegative, rightMagnitude⟩ := right
  cases leftNegative <;> cases rightNegative
  · exact compare_eq_of_lt_iff (by simp [ExactInteger.value]) (by simp [ExactInteger.value])
  · have negative : 0 < rightMagnitude := rightSigned rfl
    exact (compare_gt_iff_gt.mpr (by simp only [ExactInteger.value]; grind)).symm
  · have negative : 0 < leftMagnitude := leftSigned rfl
    exact (compare_lt_iff_lt.mpr (by simp only [ExactInteger.value]; grind)).symm
  · exact compare_eq_of_lt_iff (by simp [ExactInteger.value]) (by simp [ExactInteger.value, eq_comm])

theorem compare_integerScalar (left right : Int) :
    compare (integerScalar left) (integerScalar right) = compare left right :=
  compare_eq_of_lt_iff (by simp [integerScalar]) (by simp [integerScalar])

/-! ## Decimals -/

/-- Zero, or digits that start with one that is not zero. -/
inductive ExactDecimal.Canonical : ExactDecimal → Prop where
  | zero : Canonical ⟨false, [0], 0⟩
  | digits (negative : Bool) {digit : Nat} {digits : List Nat} (power : Int) (leading : digit ≠ 0)
      (small : ∀ other ∈ digit :: digits, other < 10) : Canonical ⟨negative, digit :: digits, power⟩

theorem scalarDigit_lt {c : Char} (digit : c.isDigit = true) : scalarDigit c < 10 := by
  simp only [Char.isDigit, Bool.and_eq_true, decide_eq_true_eq, UInt32.le_iff_toNat_le] at digit
  simp only [scalarDigit, Char.toNat]
  have zero : '0'.val.toNat = 48 := rfl
  have nine : '9'.val.toNat = 57 := rfl
  omega

theorem splitMantissa_digits {mantissa integer fractional : List Char}
    (splits : splitMantissa mantissa = some (integer, fractional)) :
    ∀ c ∈ integer ++ fractional, c.isDigit = true := by
  simp only [splitMantissa] at splits
  split at splits
  · cases splits
  · rename_i accepted
    obtain ⟨rfl, rfl⟩ := Prod.mk.inj (Option.some.inj splits)
    simp only [not_or, Bool.not_eq_eq_eq_not, Bool.not_true, Bool.not_eq_false, List.all_eq_true] at accepted
    exact accepted.2.2

theorem rdropWhile_cons_of_not {α : Type} {unwanted : α → Bool} {first : α} (rest : List α)
    (kept : unwanted first = false) :
    ∃ front, (first :: rest).rdropWhile unwanted = first :: front ∧ ∀ item ∈ front, item ∈ rest := by
  have nonempty : (first :: rest).rdropWhile unwanted ≠ [] := by
    rw [ne_eq, List.rdropWhile_eq_nil_iff]
    intro all
    rw [all first List.mem_cons_self] at kept
    cases kept
  obtain ⟨suffix, joined⟩ := List.rdropWhile_prefix unwanted (l := first :: rest)
  cases shape : (first :: rest).rdropWhile unwanted with
  | nil => exact absurd shape nonempty
  | cons head front =>
    rw [shape] at joined
    obtain ⟨rfl, tail⟩ := List.cons.inj joined
    refine ⟨front, rfl, ?_⟩
    intro item member
    rw [← tail]
    exact List.mem_append_left _ member

theorem ExactDecimal.parse_canonical {text : String} {number : ExactDecimal}
    (parsed : ExactDecimal.parse text = some number) : number.Canonical := by
  simp only [ExactDecimal.parse, bind, Option.bind_eq_some_iff] at parsed
  obtain ⟨⟨mantissa, exponent⟩, -, ⟨integer, fractional⟩, splits, power, -, built⟩ := parsed
  have isDigit := splitMantissa_digits splits
  split at built
  · obtain rfl := Option.some.inj built
    exact Canonical.zero
  · rename_i nonzero
    obtain ⟨scale, -, result⟩ := Option.bind_eq_some_iff.mp built
    obtain rfl := Option.some.inj result
    cases shape : ((integer ++ fractional).map scalarDigit).dropWhile (· = 0) with
    | nil => exact absurd shape nonzero
    | cons digit rest =>
      have small : ∀ other ∈ digit :: rest, other < 10 := by
        intro other member
        rw [← shape] at member
        obtain ⟨c, listed, rfl⟩ := List.mem_map.mp ((List.dropWhile_sublist _).subset member)
        exact scalarDigit_lt (isDigit c listed)
      have leading : digit ≠ 0 := by
        have head := List.head?_dropWhile_not (fun value : Nat => decide (value = 0))
          ((integer ++ fractional).map scalarDigit)
        rw [shape] at head
        simpa using head
      obtain ⟨front, kept, fewer⟩ := @rdropWhile_cons_of_not _ (fun value : Nat => decide (value = 0)) _ rest
        (by simpa using leading)
      rw [kept]
      refine Canonical.digits _ _ leading ?_
      intro other member
      rcases List.mem_cons.mp member with rfl | later
      · exact small _ List.mem_cons_self
      · exact small _ (List.mem_cons_of_mem _ (fewer other later))

theorem ExactDecimal.Canonical.magnitudeCompare_eq {left right : ExactDecimal} (leftCanonical : left.Canonical)
    (rightCanonical : right.Canonical) :
    left.magnitudeCompare right =
      Ord.compare (scaledValue 10 left.digits left.power) (scaledValue 10 right.digits right.power) := by
  have zero : scaledValue 10 [0] 0 = 0 := by simp [scaledValue, digitsValue]
  cases leftCanonical with
  | zero =>
    cases rightCanonical with
    | zero => simp [ExactDecimal.magnitudeCompare]
    | digits _ power leading small =>
      rw [zero, compare_lt_iff_lt.mpr (scaledValue_pos (by omega) _ leading power)]
      simp [ExactDecimal.magnitudeCompare, leading]
  | @digits _ leftDigit leftDigits leftPower leftLeading leftSmall =>
    cases rightCanonical with
    | zero =>
      rw [zero, compare_gt_iff_gt.mpr (scaledValue_pos (by omega) _ leftLeading leftPower)]
      simp [ExactDecimal.magnitudeCompare, leftLeading]
    | @digits _ rightDigit rightDigits rightPower rightLeading rightSmall =>
      simp only [ExactDecimal.magnitudeCompare, List.cons.injEq, leftLeading, rightLeading, false_and, if_false]
      rcases lt_trichotomy ((leftDigit :: leftDigits).length + leftPower)
        ((rightDigit :: rightDigits).length + rightPower) with fewer | same | more
      · rw [compare_lt_iff_lt.mpr fewer,
          compare_lt_iff_lt.mpr (scaledValue_lt_of_places (by omega) leftSmall rightLeading fewer)]
        rfl
      · rw [compare_eq_iff_eq.mpr same, Ordering.eq_then]
        exact compare_scaledValue_of_places (by omega) leftSmall rightSmall (Nat.le_max_left _ _)
          (Nat.le_max_right _ _) same
      · rw [compare_gt_iff_gt.mpr more,
          compare_gt_iff_gt.mpr (scaledValue_lt_of_places (by omega) rightSmall leftLeading more)]
        rfl

theorem ExactDecimal.Canonical.scaled_nonneg {number : ExactDecimal} (canonical : number.Canonical) :
    0 ≤ scaledValue 10 number.digits number.power ∧
      (number.negative = true → 0 < scaledValue 10 number.digits number.power) := by
  cases canonical with
  | zero => simp [scaledValue, digitsValue]
  | @digits negative digit digits power leading small =>
    have positive := scaledValue_pos (by omega : 0 < 10) digits leading power
    exact ⟨positive.le, fun _ => positive⟩

theorem ExactDecimal.Canonical.compare_eq {left right : ExactDecimal} (leftCanonical : left.Canonical)
    (rightCanonical : right.Canonical) : left.compare right = Ord.compare left.value right.value := by
  obtain ⟨leftNonneg, leftPositive⟩ := leftCanonical.scaled_nonneg
  obtain ⟨rightNonneg, rightPositive⟩ := rightCanonical.scaled_nonneg
  have magnitudes := leftCanonical.magnitudeCompare_eq rightCanonical
  simp only [ExactDecimal.compare, ExactDecimal.value]
  cases leftSign : left.negative <;> cases rightSign : right.negative <;>
    simp only [Bool.false_eq_true, if_false, if_true]
  · exact magnitudes
  · have negative := rightPositive rightSign
    exact (compare_gt_iff_gt.mpr (by linarith)).symm
  · have negative := leftPositive leftSign
    exact (compare_lt_iff_lt.mpr (by linarith)).symm
  · rw [magnitudes, ← Std.OrientedOrd.eq_swap]
    exact compare_eq_of_lt_iff neg_lt_neg_iff.symm (by rw [neg_inj, eq_comm])

/-! ## All exact types -/

/-- Two texts compare as the values they denote, where both denote one. -/
theorem compareTypedScalars_eq {scalarType : CatalogScalarType} (exact : scalarType.isExact = true)
    (other : OtherScalarOrder) (left right : String) :
    compareTypedScalars other scalarType left right =
      Option.map₂ compare (scalarValue scalarType left) (scalarValue scalarType right) := by
  have integers : ∀ (bits : Nat) (signed : Bool),
      (do return compareInteger (← parseInteger left bits signed) (← parseInteger right bits signed)) =
        Option.map₂ compare ((parseInteger left bits signed).map fun number => integerScalar number.value)
          ((parseInteger right bits signed).map fun number => integerScalar number.value) := by
    intro bits signed
    cases parsedLeft : parseInteger left bits signed with
    | none => rfl
    | some first =>
      cases parsedRight : parseInteger right bits signed with
      | none => rfl
      | some second =>
        simp only [Option.map_some, Option.map₂_some_some, bind, Option.bind_some, pure, compare_integerScalar,
          compareInteger_eq (parseInteger_signed parsedLeft) (parseInteger_signed parsedRight)]
  cases scalarType with
  | signedInteger bits => exact integers bits true
  | unsignedInteger bits => exact integers bits false
  | decimal =>
    simp only [compareTypedScalars, scalarValue]
    cases parsedLeft : ExactDecimal.parse left with
    | none => rfl
    | some first =>
      cases parsedRight : ExactDecimal.parse right with
      | none => rfl
      | some second =>
        have compared := (ExactDecimal.parse_canonical parsedLeft).compare_eq (ExactDecimal.parse_canonical parsedRight)
        simp only [Option.map_some, Option.map₂_some_some, bind, Option.bind_some, pure, compared]
        exact congrArg some (compare_eq_of_lt_iff Sum.Lex.inl_lt_inl_iff.symm
          (by rw [toLex_inj, Sum.inl.injEq]))
  | text =>
    simp only [compareTypedScalars, scalarValue, Option.map₂_some_some]
    exact congrArg some (compare_eq_of_lt_iff Sum.Lex.inr_lt_inr_iff.symm (by rw [toLex_inj, Sum.inr.injEq]))
  | float32 | float64 | timestamp | timestampTz | unsupported => cases exact

end DucklakeCatalog
