import Mathlib.Algebra.Order.Field.Power
import Mathlib.Algebra.Order.Ring.Rat
import Mathlib.Data.Nat.Digits.Lemmas
import Mathlib.Order.Compare

/-! Comparison of numbers written as digits with a power of the base. -/
namespace ScalarOrder

/-- The number a digit string spells, most significant digit first. -/
def digitsValue (base : Nat) (digits : List Nat) : Nat := Nat.ofDigits base digits.reverse

theorem digitsValue_cons (base digit : Nat) (digits : List Nat) :
    digitsValue base (digit :: digits) = digit * base ^ digits.length + digitsValue base digits := by
  simp only [digitsValue, List.reverse_cons, Nat.ofDigits_append, Nat.ofDigits_singleton, List.length_reverse]
  rw [Nat.mul_comm, Nat.add_comm]

theorem digitsValue_append_zeros (base zeros : Nat) (digits : List Nat) :
    digitsValue base (digits ++ List.replicate zeros 0) = digitsValue base digits * base ^ zeros := by
  simp [digitsValue, List.reverse_append, Nat.ofDigits_append, Nat.ofDigits_replicate_zero, Nat.mul_comm]

variable {digits left right : List Nat} {digit : Nat}

theorem digitsValue_lt {base : Nat} (valid : 1 < base) (small : ∀ digit ∈ digits, digit < base) :
    digitsValue base digits < base ^ digits.length := by
  have bound := Nat.ofDigits_lt_base_pow_length valid (l := digits.reverse) (by simpa using small)
  simpa [digitsValue] using bound

theorem pow_le_digitsValue {base : Nat} (digits : List Nat) (leading : digit ≠ 0) :
    base ^ digits.length ≤ digitsValue base (digit :: digits) := by
  rw [digitsValue_cons]
  exact (Nat.le_mul_of_pos_left _ (Nat.pos_of_ne_zero leading)).trans (Nat.le_add_right _ _)

theorem compare_eq_of_lt_iff {α β : Type} [LinearOrder α] [LinearOrder β] {a b : α} {c d : β}
    (less : a < b ↔ c < d) (same : a = b ↔ c = d) : compare a b = compare c d := by
  rcases lt_trichotomy a b with below | equal | above
  · rw [compare_lt_iff_lt.mpr below, compare_lt_iff_lt.mpr (less.mp below)]
  · rw [compare_eq_iff_eq.mpr equal, compare_eq_iff_eq.mpr (same.mp equal)]
  · have greater : d < c := lt_of_le_of_ne (not_lt.mp fun below => above.asymm (less.mpr below))
      fun equal => above.ne' (same.mpr equal.symm)
    rw [compare_gt_iff_gt.mpr above, compare_gt_iff_gt.mpr greater]

/-- A more significant digit decides, whatever follows it. -/
theorem digitsValue_cons_lt {base first second : Nat} (valid : 1 < base)
    (small : ∀ digit ∈ left, digit < base) (aligned : left.length = right.length) (below : first < second) :
    digitsValue base (first :: left) < digitsValue base (second :: right) := by
  rw [digitsValue_cons, digitsValue_cons]
  have rest : digitsValue base left < base ^ left.length := digitsValue_lt valid small
  calc first * base ^ left.length + digitsValue base left
      < first * base ^ left.length + base ^ left.length := Nat.add_lt_add_left rest _
    _ = (first + 1) * base ^ right.length := by rw [← aligned, Nat.succ_mul]
    _ ≤ second * base ^ right.length := Nat.mul_le_mul_right _ below
    _ ≤ second * base ^ right.length + digitsValue base right := Nat.le_add_right _ _

/-- Digit strings of one length compare as the numbers they spell. -/
theorem compare_digits {base : Nat} (valid : 1 < base)
    (leftSmall : ∀ digit ∈ left, digit < base) (rightSmall : ∀ digit ∈ right, digit < base)
    (aligned : left.length = right.length) :
    compare left right = compare (digitsValue base left) (digitsValue base right) := by
  induction left generalizing right with
  | nil =>
    obtain rfl := List.length_eq_zero_iff.mp aligned.symm
    simp
  | cons first left ih =>
    cases right with
    | nil => simp at aligned
    | cons second right =>
      have sameLength : left.length = right.length := Nat.succ.inj aligned
      have leftRest := fun digit member => leftSmall digit (List.mem_cons_of_mem _ member)
      have rightRest := fun digit member => rightSmall digit (List.mem_cons_of_mem _ member)
      rw [List.compare_eq_compareLex, List.compareLex_cons_cons, ← List.compare_eq_compareLex]
      rcases lt_trichotomy first second with below | rfl | above
      · rw [compare_lt_iff_lt.mpr below,
          compare_lt_iff_lt.mpr (digitsValue_cons_lt valid leftRest sameLength below)]
        rfl
      · rw [compare_eq_iff_eq.mpr rfl, Ordering.eq_then, ih leftRest rightRest sameLength]
        apply compare_eq_of_lt_iff <;> rw [digitsValue_cons, digitsValue_cons, sameLength] <;> omega
      · rw [compare_gt_iff_gt.mpr above,
          compare_gt_iff_gt.mpr (digitsValue_cons_lt valid rightRest sameLength.symm above)]
        rfl

/-! ## Digits with a power -/

/-- The number digits stand for when the last of them counts powers of the base. -/
def scaledValue (base : Nat) (digits : List Nat) (power : Int) : ℚ := digitsValue base digits * (base : ℚ) ^ power

section

variable {base : Nat}

theorem scaledValue_append_zeros (positive : 0 < base) (zeros : Nat) (digits : List Nat) (power : Int) :
    scaledValue base (digits ++ List.replicate zeros 0) (power - zeros) = scaledValue base digits power := by
  have nonzero : (base : ℚ) ≠ 0 := Nat.cast_ne_zero.mpr positive.ne'
  simp only [scaledValue, digitsValue_append_zeros, Nat.cast_mul, Nat.cast_pow]
  rw [mul_assoc, ← zpow_natCast, ← zpow_add₀ nonzero]
  congr 2
  omega

/-- The number of places before the point bounds the number from above. -/
theorem scaledValue_lt (valid : 1 < base) (small : ∀ digit ∈ digits, digit < base) (power : Int) :
    scaledValue base digits power < (base : ℚ) ^ (digits.length + power) := by
  have positive : (0 : ℚ) < base := by exact_mod_cast (Nat.zero_lt_one.trans valid)
  have bound : (digitsValue base digits : ℚ) < (base : ℚ) ^ digits.length := by
    exact_mod_cast digitsValue_lt valid small
  rw [zpow_add₀ positive.ne', zpow_natCast]
  exact mul_lt_mul_of_pos_right bound (zpow_pos positive power)

/-- And from below, unless it starts with a zero. -/
theorem le_scaledValue (positive : 0 < base) (digits : List Nat) (leading : digit ≠ 0) (power : Int) :
    (base : ℚ) ^ (digits.length + power) ≤ scaledValue base (digit :: digits) power := by
  have positive : (0 : ℚ) < base := by exact_mod_cast positive
  have bound : (base : ℚ) ^ digits.length ≤ digitsValue base (digit :: digits) := by
    exact_mod_cast pow_le_digitsValue digits leading
  rw [zpow_add₀ positive.ne', zpow_natCast]
  exact mul_le_mul_of_nonneg_right bound (zpow_pos positive power).le

theorem scaledValue_pos (positive : 0 < base) (digits : List Nat) (leading : digit ≠ 0) (power : Int) :
    0 < scaledValue base (digit :: digits) power := by
  have base_pos : (0 : ℚ) < base := by exact_mod_cast positive
  exact (zpow_pos base_pos _).trans_le (le_scaledValue positive digits leading power)

variable {leftPower rightPower : Int}

theorem scaledValue_lt_of_places {leftDigits : List Nat} {rightDigits : List Nat} (valid : 1 < base)
    (small : ∀ digit ∈ leftDigits, digit < base) (leading : digit ≠ 0)
    (places : leftDigits.length + leftPower < (digit :: rightDigits).length + rightPower) :
    scaledValue base leftDigits leftPower < scaledValue base (digit :: rightDigits) rightPower := by
  have base_ge : (1 : ℚ) ≤ base := by exact_mod_cast valid.le
  calc scaledValue base leftDigits leftPower
      < (base : ℚ) ^ (leftDigits.length + leftPower) := scaledValue_lt valid small leftPower
    _ ≤ (base : ℚ) ^ (rightDigits.length + rightPower) := by
        apply zpow_le_zpow_right₀ base_ge
        rw [List.length_cons] at places
        omega
    _ ≤ scaledValue base (digit :: rightDigits) rightPower :=
        le_scaledValue (Nat.zero_lt_one.trans valid) rightDigits leading rightPower

/-- With as many places, the digits decide once they are filled up to one length. -/
theorem compare_scaledValue_of_places {width : Nat}
    (valid : 1 < base) (leftSmall : ∀ digit ∈ left, digit < base) (rightSmall : ∀ digit ∈ right, digit < base)
    (leftFits : left.length ≤ width) (rightFits : right.length ≤ width)
    (places : left.length + leftPower = right.length + rightPower) :
    compare (left ++ List.replicate (width - left.length) 0) (right ++ List.replicate (width - right.length) 0) =
      compare (scaledValue base left leftPower) (scaledValue base right rightPower) := by
  have positive : 0 < base := Nat.zero_lt_one.trans valid
  have base_pos : (0 : ℚ) < base := by exact_mod_cast positive
  have padded : ∀ {digits : List Nat} (count : Nat), (∀ digit ∈ digits, digit < base) →
      ∀ digit ∈ digits ++ List.replicate count 0, digit < base := by
    intro digits count small digit member
    rcases List.mem_append.mp member with listed | zero
    · exact small digit listed
    · rw [List.eq_of_mem_replicate zero]
      exact positive
  rw [compare_digits valid (padded _ leftSmall) (padded _ rightSmall)
      (by simp only [List.length_append, List.length_replicate]; omega),
    ← scaledValue_append_zeros positive (width - left.length) left,
    ← scaledValue_append_zeros positive (width - right.length) right]
  have power : leftPower - ((width - left.length : Nat) : Int) = rightPower - ((width - right.length : Nat) : Int) := by
    omega
  have scale_pos : (0 : ℚ) < (base : ℚ) ^ (rightPower - ((width - right.length : Nat) : Int)) := zpow_pos base_pos _
  rw [power]
  apply compare_eq_of_lt_iff
  · rw [scaledValue, scaledValue, mul_lt_mul_iff_left₀ scale_pos, Nat.cast_lt]
  · rw [scaledValue, scaledValue, mul_left_inj' scale_pos.ne', Nat.cast_inj]

end

end ScalarOrder
