import Mathlib.Algebra.Order.Monoid.NatCast
import Mathlib.Data.Prod.Lex
import Mathlib.Tactic.IntervalCases

/-! Dates of the Gregorian calendar, carried back to year 0, and the days that
have passed since its first one. -/
namespace Calendar

def isLeapYear (year : Nat) : Bool := 4 ∣ year ∧ (100 ∣ year → 400 ∣ year)

def yearLength (year : Nat) : Nat := if isLeapYear year then 366 else 365

def monthLength (year month : Nat) : Nat :=
  match month with
  | 2 => if isLeapYear year then 29 else 28
  | 4 | 6 | 9 | 11 => 30
  | _ => 31

structure Date where
  year : Nat
  month : Nat
  day : Nat
  isMonth : 1 ≤ month ∧ month ≤ 12
  isDay : 1 ≤ day ∧ day ≤ monthLength year month
  deriving DecidableEq

/-- Days of the years before one. -/
def daysBeforeYear : Nat → Nat
  | 0 => 0
  | year + 1 => daysBeforeYear year + yearLength year

/-- Days of the first months of a year. -/
def daysOfMonths (year : Nat) : Nat → Nat
  | 0 => 0
  | months + 1 => daysOfMonths year months + monthLength year (months + 1)

namespace Date

variable {left right : Date}

/-- Days since the first of January of year 0. -/
def dayNumber (date : Date) : Nat :=
  daysBeforeYear date.year + daysOfMonths date.year (date.month - 1) + (date.day - 1)

def key (date : Date) : Nat ×ₗ (Nat ×ₗ Nat) := toLex (date.year, toLex (date.month, date.day))

theorem key_inj : left.key = right.key ↔ left = right := by
  obtain ⟨_, _, _, _, _⟩ := left
  obtain ⟨_, _, _, _, _⟩ := right
  simp [key]

def epoch : Date := ⟨1970, 1, 1, by decide, by decide⟩

end Date

/-! ## Years and months -/

theorem daysBeforeYear_eq (year : Nat) :
    daysBeforeYear year + (year + 99) / 100 = 365 * year + (year + 3) / 4 + (year + 399) / 400 := by
  induction year with
  | zero => rfl
  | succ year ih =>
    have leap : isLeapYear year = true ↔ year % 4 = 0 ∧ (year % 100 = 0 → year % 400 = 0) := by
      simp only [isLeapYear, Nat.dvd_iff_mod_eq_zero, decide_eq_true_eq]
    by_cases isLeap : isLeapYear year = true
    · have conditions := leap.mp isLeap
      simp only [daysBeforeYear, yearLength, isLeap, if_true]
      omega
    · have conditions := mt leap.mpr isLeap
      simp only [daysBeforeYear, yearLength, isLeap, Bool.false_eq_true, if_false]
      omega

theorem monthLength_pos (year month : Nat) : 0 < monthLength year month := by
  unfold monthLength
  split <;> try split
  all_goals omega

theorem daysOfMonths_all (year : Nat) : daysOfMonths year 12 = yearLength year := by
  cases leap : isLeapYear year <;> simp [daysOfMonths, monthLength, yearLength, leap]

/-- From March on the months have 153 days in five. -/
theorem daysOfMonths_march (year : Nat) {month : Nat} (isMonth : month ≤ 12) (late : 2 < month) :
    daysOfMonths year (month - 1) + 306 = yearLength year + (153 * (month - 3) + 2) / 5 := by
  have february : monthLength year 2 + 337 = yearLength year := by
    cases leap : isLeapYear year <;> simp [monthLength, yearLength, leap]
  rw [← february]
  interval_cases month
  all_goals
    simp only [daysOfMonths, monthLength]
    omega

theorem daysOfMonths_mono (year : Nat) {fewer more : Nat} (le : fewer ≤ more) :
    daysOfMonths year fewer ≤ daysOfMonths year more := by
  induction le with
  | refl => exact le_rfl
  | step _ ih => exact ih.trans (Nat.le_add_right _ _)

theorem daysBeforeYear_mono {earlier later : Nat} (le : earlier ≤ later) :
    daysBeforeYear earlier ≤ daysBeforeYear later := by
  induction le with
  | refl => exact le_rfl
  | step _ ih => exact ih.trans (Nat.le_add_right _ _)

/-! ## Days in order -/

namespace Date

variable {left right : Date}

theorem dayOfMonth_lt (date : Date) :
    daysOfMonths date.year (date.month - 1) + (date.day - 1) < daysOfMonths date.year date.month := by
  obtain ⟨year, month, day, isMonth, isDay⟩ := date
  cases month with
  | zero => omega
  | succ month =>
    simp only [Nat.add_sub_cancel, daysOfMonths]
    omega

theorem dayNumber_lt_year (date : Date) : date.dayNumber < daysBeforeYear (date.year + 1) := by
  have inMonth := date.dayOfMonth_lt
  have inYear := daysOfMonths_mono date.year date.isMonth.2
  rw [daysOfMonths_all] at inYear
  rw [dayNumber, daysBeforeYear]
  omega

theorem dayNumber_lt (before : left.key < right.key) : left.dayNumber < right.dayNumber := by
  rw [key, key, Prod.Lex.toLex_lt_toLex] at before
  rcases before with earlier | ⟨sameYear, before⟩
  · calc left.dayNumber < daysBeforeYear (left.year + 1) := left.dayNumber_lt_year
      _ ≤ daysBeforeYear right.year := daysBeforeYear_mono earlier
      _ ≤ right.dayNumber := by rw [dayNumber]; omega
  · rw [Prod.Lex.toLex_lt_toLex] at before
    have sameYear : left.year = right.year := sameYear
    rcases before with earlier | ⟨sameMonth, before⟩
    · have earlier : left.month < right.month := earlier
      have inMonth := left.dayOfMonth_lt
      have months := daysOfMonths_mono left.year (Nat.le_sub_one_of_lt earlier)
      rw [dayNumber, dayNumber, ← sameYear]
      omega
    · have sameMonth : left.month = right.month := sameMonth
      have before : left.day < right.day := before
      have first := left.isDay.1
      rw [dayNumber, dayNumber, ← sameYear, ← sameMonth]
      omega

theorem dayNumber_lt_iff : left.dayNumber < right.dayNumber ↔ left.key < right.key := by
  constructor
  · intro fewer
    rcases lt_trichotomy left.key right.key with before | same | after
    · exact before
    · rw [key_inj.mp same] at fewer
      exact absurd fewer (lt_irrefl _)
    · exact absurd (fewer.trans (dayNumber_lt after)) (lt_irrefl _)
  · exact dayNumber_lt

theorem dayNumber_inj : left.dayNumber = right.dayNumber ↔ left = right := by
  constructor
  · intro same
    rcases lt_trichotomy left.key right.key with before | equal | after
    · exact absurd same (dayNumber_lt before).ne
    · exact key_inj.mp equal
    · exact absurd same (dayNumber_lt after).ne'
  · rintro rfl
    rfl

/-- The day after: the next one of the month, the first of the next month, or the first of the next year. -/
def next (date : Date) : Date :=
  if day : date.day < monthLength date.year date.month then
    ⟨date.year, date.month, date.day + 1, date.isMonth, by omega⟩
  else if month : date.month < 12 then
    ⟨date.year, date.month + 1, 1, by omega, le_rfl, monthLength_pos _ _⟩
  else ⟨date.year + 1, 1, 1, by omega, le_rfl, monthLength_pos _ _⟩

theorem dayNumber_next (date : Date) : date.next.dayNumber = date.dayNumber + 1 := by
  obtain ⟨year, month, day, isMonth, isDay⟩ := date
  cases month with
  | zero => omega
  | succ month =>
    rw [next]
    dsimp only
    split_ifs with sameMonth sameYear
    · simp only [dayNumber]
      omega
    · simp only [dayNumber, Nat.add_sub_cancel, daysOfMonths]
      omega
    · obtain rfl : month = 11 := by omega
      have year := daysOfMonths_all year
      simp only [daysOfMonths] at year
      simp only [dayNumber, Nat.add_sub_cancel, daysOfMonths, daysBeforeYear, Nat.sub_self]
      omega

end Date

end Calendar
