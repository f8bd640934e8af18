import DucklakeCatalog.Calendar.Civil
import DucklakeCatalog.KeyedStore.Fallible
import DucklakeCatalog.Kv.Store
import Mathlib.Data.List.TakeWhile

/-! The cutoff of a cleanup request: a UTC timestamp as text, in microseconds since 1970. -/
namespace DucklakeCatalog

/-! ## Text -/

def stripSuffix (suffix text : List Char) : Option (List Char) :=
  if suffix.isSuffixOf text then some (text.take (text.length - suffix.length)) else none

/-- The text before and after the first separator. -/
def splitOnceAt (separator : Char) (text : List Char) : Option (List Char × List Char) :=
  match text.dropWhile (· ≠ separator) with
  | [] => none
  | _ :: rest => some (text.takeWhile (· ≠ separator), rest)

def i64Max : Int := 9223372036854775807

def i64Min : Int := -9223372036854775808

def wrapI64 (value : Int) : Int := (value + 2 ^ 63) % 2 ^ 64 - 2 ^ 63

def saturateI64 (value : Int) : Int := max i64Min (min i64Max value)

def appendI64Digit (negative : Bool) (value : Int) (c : Char) : Except String Int :=
  if c.isDigit then
    let digit : Int := c.toNat - '0'.toNat
    let next := if negative then value * 10 - digit else value * 10 + digit
    if i64Max < next then .error "number too large to fit in target type"
    else if next < i64Min then .error "number too small to fit in target type"
    else .ok next
  else .error "invalid digit found in string"

/-- `str::parse` for `i64`. -/
def parseI64Text (text : List Char) : Except String Int :=
  match text with
  | [] => .error "cannot parse integer from empty string"
  | ['+'] | ['-'] => .error "invalid digit found in string"
  | '+' :: digits => digits.foldlM (appendI64Digit false) 0
  | '-' :: digits => digits.foldlM (appendI64Digit true) 0
  | digits => digits.foldlM (appendI64Digit false) 0

/-- `{:0width}`: the sign counts and stands before the zeros. -/
def zeroPadded (width : Nat) (value : Int) : String :=
  let digits := toString value.natAbs
  let sign := if value < 0 then "-" else ""
  sign ++ String.ofList (List.replicate (width - sign.length - digits.length) '0') ++ digits

/-! ## Parsing -/

def parseI64Part (part : Option (List Char)) (field : String) (timestamp : List Char) : CatalogResult Int :=
  match part with
  | none => .error (.decode s!"cleanup timestamp is missing {field}: {String.ofList timestamp}")
  | some part =>
    match parseI64Text part with
    | .error err => .error (.decode s!"cleanup timestamp has invalid {field} in {String.ofList timestamp}: {err}")
    | .ok value => .ok value

/-- Of the fraction six digits count. -/
def parseSecondMicros (secondText timestamp : List Char) : CatalogResult (Int × Int) := do
  let (second, fraction) := (splitOnceAt '.' secondText).getD (secondText, [])
  let second ← match parseI64Text second with
    | .error err => .error (.decode s!"cleanup timestamp has invalid seconds in {String.ofList timestamp}: {err}")
    | .ok value => .ok value
  let microsText := fraction.take 6
  let microsText := microsText ++ List.replicate (6 - microsText.length) '0'
  let micros ← match parseI64Text microsText with
    | .error err =>
      .error (.decode s!"cleanup timestamp has invalid fractional seconds in {String.ofList timestamp}: {err}")
    | .ok value => .ok value
  return (second, micros)

/-- Years begin in March; 400 of them are an era. -/
def daysFromCivil (year month day : Int) : CatalogResult Int :=
  if ¬(1 ≤ month ∧ month ≤ 12) ∨ ¬(1 ≤ day ∧ day ≤ 31) then
    .error (.decode
      s!"cleanup timestamp date is out of range: {zeroPadded 4 year}-{zeroPadded 2 month}-{zeroPadded 2 day}")
  else
    let year := wrapI64 (year - if month ≤ 2 then 1 else 0)
    let era := (if 0 ≤ year then year else wrapI64 (year - 399)).tdiv 400
    let yoe := year - era * 400
    let month := month + if 2 < month then -3 else 9
    let doy := (153 * month + 2).tdiv 5 + day - 1
    let doe := yoe * 365 + yoe.tdiv 4 - yoe.tdiv 100 + doy
    .ok (wrapI64 (era * 146097 + doe - 719468))

def parseDucklakeUtcTimestampMicros (timestamp : List Char) : CatalogResult Int := do
  let timestamp := (((stripSuffix "+00:00".toList timestamp).or (stripSuffix "+00".toList timestamp)).or
    (stripSuffix "Z".toList timestamp)).getD timestamp
  match (splitOnceAt 'T' timestamp).or (splitOnceAt ' ' timestamp) with
  | none => .error (.decode s!"cleanup timestamp is missing date/time separator: {String.ofList timestamp}")
  | some (date, time) =>
    let dateParts := date.splitOn '-'
    let year ← parseI64Part dateParts[0]? "year" timestamp
    let month ← parseI64Part dateParts[1]? "month" timestamp
    let day ← parseI64Part dateParts[2]? "day" timestamp
    if dateParts[3]?.isSome then
      .error (.decode s!"cleanup timestamp has too many date fields: {String.ofList timestamp}")
    else
      let timeParts := time.splitOn ':'
      let hour ← parseI64Part timeParts[0]? "hour" timestamp
      let minute ← parseI64Part timeParts[1]? "minute" timestamp
      match timeParts[2]? with
      | none => .error (.decode s!"cleanup timestamp is missing seconds: {String.ofList timestamp}")
      | some secondText =>
        if timeParts[3]?.isSome then
          .error (.decode s!"cleanup timestamp has too many time fields: {String.ofList timestamp}")
        else
          let (second, micros) ← parseSecondMicros secondText timestamp
          let days ← daysFromCivil year month day
          return saturateI64 (saturateI64 (saturateI64 (saturateI64 (saturateI64 (days * 86400000000) +
            saturateI64 (hour * 3600000000)) + saturateI64 (minute * 60000000)) +
            saturateI64 (second * 1000000)) + micros)

/-! ## Instants and how they are written -/

open Calendar KeyedStore

/-- A time of day on a date, to the microsecond. -/
structure UtcTime where
  date : Date
  hour : Fin 24
  minute : Fin 60
  second : Fin 60
  micros : Fin 1000000

def dayMicros : Nat := 86400000000

def UtcTime.timeOfDay (time : UtcTime) : Nat :=
  ((time.hour * 60 + time.minute) * 60 + time.second) * 1000000 + time.micros

/-- Microseconds since the start of 1970. -/
def UtcTime.instant (time : UtcTime) : Int :=
  (time.date.dayNumber - Date.epoch.dayNumber) * dayMicros + time.timeOfDay

/-- A number in decimal digits, with zeros in front up to the width. -/
def paddedNumber (width value : Nat) : List Char :=
  List.replicate (width - (Nat.toDigits 10 value).length) '0' ++ Nat.toDigits 10 value

/-- The choices in writing a time: the separator, how many digits of the fraction, the suffix. -/
structure UtcSpelling (time : UtcTime) where
  separator : Char
  isSeparator : separator = 'T' ∨ separator = ' '
  fraction : List Char
  isFraction : ∀ c ∈ fraction, c.isDigit = true
  length : fraction.length ≤ 6
  denotes : Nat.ofDigitChars 10 (fraction ++ List.replicate (6 - fraction.length) '0') 0 = time.micros
  suffix : List Char
  isSuffix : suffix = [] ∨ suffix = "Z".toList ∨ suffix = "+00".toList ∨ suffix = "+00:00".toList

namespace UtcTime

variable {time : UtcTime}

def dateText (time : UtcTime) : List Char :=
  paddedNumber 4 time.date.year ++ '-' :: (paddedNumber 2 time.date.month ++ '-' :: paddedNumber 2 time.date.day)

def secondText (time : UtcTime) (spelling : UtcSpelling time) : List Char :=
  paddedNumber 2 time.second ++ if spelling.fraction = [] then [] else '.' :: spelling.fraction

def clockText (time : UtcTime) (spelling : UtcSpelling time) : List Char :=
  paddedNumber 2 time.hour ++ ':' :: (paddedNumber 2 time.minute ++ ':' :: time.secondText spelling)

def text (time : UtcTime) (spelling : UtcSpelling time) : List Char :=
  time.dateText ++ spelling.separator :: time.clockText spelling ++ spelling.suffix

end UtcTime

/-! ## Numbers in texts -/

variable {value : Nat} {c : Char} {text suffix : List Char}

theorem isDigit_of_mem_paddedNumber {width : Nat} (member : c ∈ paddedNumber width value) :
    c.isDigit = true := by
  rcases List.mem_append.mp member with zero | digit
  · rw [List.eq_of_mem_replicate zero]
    rfl
  · exact Nat.isDigit_of_mem_toDigits (by decide) (by decide) digit

theorem paddedNumber_ne_nil (width value : Nat) : paddedNumber width value ≠ [] := by
  simp [paddedNumber, Nat.toDigits_ne_nil]

theorem ofDigitChars_paddedNumber (width value : Nat) : Nat.ofDigitChars 10 (paddedNumber width value) 0 = value := by
  rw [paddedNumber, Nat.ofDigitChars_append, Nat.ofDigitChars_replicate_zero, Nat.mul_zero,
    Nat.ofDigitChars_ten_toDigits]

theorem appendI64Digit_digits {digits : List Char} (all : ∀ c ∈ digits, c.isDigit = true)
    (fits : (Nat.ofDigitChars 10 digits value : Int) ≤ i64Max) :
    digits.foldlM (appendI64Digit false) (value : Int) = .ok (Nat.ofDigitChars 10 digits value : Int) := by
  induction digits generalizing value with
  | nil => rfl
  | cons c rest ih =>
    have isDigit := all c List.mem_cons_self
    have above : 48 ≤ c.toNat := by
      simp only [Char.isDigit, Bool.and_eq_true, decide_eq_true_eq, UInt32.le_iff_toNat_le] at isDigit
      exact isDigit.1
    rw [Nat.ofDigitChars_cons] at fits ⊢
    have rest_le : 10 * value + (c.toNat - '0'.toNat) ≤
        Nat.ofDigitChars 10 rest (10 * value + (c.toNat - '0'.toNat)) := by
      rw [Nat.ofDigitChars_eq_ofDigitChars_zero]
      have positive : 1 ≤ 10 ^ rest.length := Nat.pow_pos (by decide)
      exact (Nat.le_mul_of_pos_left _ positive).trans (Nat.le_add_right _ _)
    have zero : '0'.toNat = 48 := rfl
    have step : appendI64Digit false value c = .ok ((10 * value + (c.toNat - '0'.toNat) : Nat) : Int) := by
      have notAbove : ¬i64Max < (value : Int) * 10 + (c.toNat - '0'.toNat : Int) := by omega
      have notBelow : ¬(value : Int) * 10 + (c.toNat - '0'.toNat : Int) < i64Min := by
        rw [i64Min]
        omega
      simp only [appendI64Digit, isDigit, if_true, Bool.false_eq_true, if_false, notAbove, notBelow]
      congr 1
      omega
    rw [List.foldlM_cons, step]
    exact ih (fun other member => all other (List.mem_cons_of_mem _ member)) fits

/-- Digits alone are read as the number they are. -/
theorem parseI64Text_digits {digits : List Char} (some : digits ≠ []) (all : ∀ c ∈ digits, c.isDigit = true)
    (fits : (Nat.ofDigitChars 10 digits 0 : Int) ≤ i64Max) :
    parseI64Text digits = .ok (Nat.ofDigitChars 10 digits 0 : Int) := by
  have folds := appendI64Digit_digits all fits
  cases digits with
  | nil => exact absurd rfl some
  | cons first rest =>
    have isDigit := all first List.mem_cons_self
    have notPlus : first ≠ '+' := by
      rintro rfl
      cases isDigit
    have notMinus : first ≠ '-' := by
      rintro rfl
      cases isDigit
    rw [parseI64Text]
    · exact folds
    all_goals simp_all

theorem parseI64Text_paddedNumber {width : Nat} (fits : (value : Int) ≤ i64Max) :
    parseI64Text (paddedNumber width value) = .ok (value : Int) := by
  have reads := parseI64Text_digits (paddedNumber_ne_nil width value) (fun c => isDigit_of_mem_paddedNumber)
  rw [ofDigitChars_paddedNumber] at reads
  exact reads fits

/-! ## Separators and suffixes -/

theorem splitOnceAt_append {separator : Char} {front : List Char} (absent : separator ∉ front) (rest : List Char) :
    splitOnceAt separator (front ++ separator :: rest) = some (front, rest) := by
  have all : ∀ c ∈ front, decide (c ≠ separator) = true := by
    intro c member
    exact decide_eq_true fun same => absent (same ▸ member)
  rw [splitOnceAt, List.dropWhile_append_of_pos all, List.takeWhile_append_of_pos all]
  simp

theorem splitOnceAt_absent {separator : Char} (absent : separator ∉ text) :
    splitOnceAt separator text = none := by
  have all : ∀ c ∈ text, decide (c ≠ separator) = true := by
    intro c member
    exact decide_eq_true fun same => absent (same ▸ member)
  rw [splitOnceAt, List.dropWhile_eq_nil_iff.mpr all]

theorem stripSuffix_append (text suffix : List Char) : stripSuffix suffix (text ++ suffix) = some text := by
  rw [stripSuffix, if_pos (List.isSuffixOf_iff_suffix.mpr (List.suffix_append text suffix)), List.length_append,
    Nat.add_sub_cancel, List.take_left]

theorem stripSuffix_none (other : ¬suffix <:+ text) : stripSuffix suffix text = none := by
  rw [stripSuffix, if_neg (mt List.isSuffixOf_iff_suffix.mp other)]

theorem stripSuffix_absent (member : c ∈ suffix) (absent : c ∉ text) :
    stripSuffix suffix text = none :=
  stripSuffix_none fun isSuffix => absent (isSuffix.subset member)

/-- Of the three suffixes only the one that is there is taken off. -/
theorem stripUtcSuffix {body : List Char} (plus : '+' ∉ body) (zulu : 'Z' ∉ body)
    (isSuffix : suffix = [] ∨ suffix = "Z".toList ∨ suffix = "+00".toList ∨ suffix = "+00:00".toList) :
    (((stripSuffix "+00:00".toList (body ++ suffix)).or (stripSuffix "+00".toList (body ++ suffix))).or
      (stripSuffix "Z".toList (body ++ suffix))).getD (body ++ suffix) = body := by
  have long : '+' ∈ "+00:00".toList := by decide
  have short : '+' ∈ "+00".toList := by decide
  have letter : 'Z' ∈ "Z".toList := by decide
  rcases isSuffix with rfl | rfl | rfl | rfl
  · rw [List.append_nil, stripSuffix_absent long plus, stripSuffix_absent short plus, stripSuffix_absent letter zulu]
    rfl
  · have plus : '+' ∉ body ++ "Z".toList := by
      rw [List.mem_append, not_or]
      exact ⟨plus, by decide⟩
    rw [stripSuffix_absent long plus, stripSuffix_absent short plus, stripSuffix_append]
    rfl
  · have shorter : ¬"+00:00".toList <:+ body ++ "+00".toList := by
      intro both
      have inside := List.suffix_of_suffix_length_le (List.suffix_append body "+00".toList) both (by decide)
      exact absurd inside (by decide)
    rw [stripSuffix_none shorter, stripSuffix_append]
    rfl
  · rw [stripSuffix_append]
    rfl

/-! ## The civil calendar -/

theorem wrapI64_of_bounds {value : Int} (lower : -2 ^ 63 ≤ value) (upper : value < 2 ^ 63) :
    wrapI64 value = value := by
  rw [wrapI64]
  omega

/-- Days from the first of March of year 0, when the year begins in March. -/
theorem marchDays {year : Int} (lower : -1 ≤ year) (upper : year ≤ 2 ^ 40) {dayOfYear : Int}
    (inYear : 0 ≤ dayOfYear ∧ dayOfYear ≤ 400) :
    wrapI64 ((if 0 ≤ year then year else wrapI64 (year - 399)).tdiv 400 * 146097 +
      ((year - (if 0 ≤ year then year else wrapI64 (year - 399)).tdiv 400 * 400) * 365 +
        (year - (if 0 ≤ year then year else wrapI64 (year - 399)).tdiv 400 * 400).tdiv 4 -
        (year - (if 0 ≤ year then year else wrapI64 (year - 399)).tdiv 400 * 400).tdiv 100 + dayOfYear) - 719468) =
      365 * year + year / 4 - year / 100 + year / 400 + dayOfYear - 719468 := by
  have era : (if 0 ≤ year then year else wrapI64 (year - 399)).tdiv 400 = year / 400 := by
    split_ifs with sign
    · rw [Int.tdiv_eq_ediv_of_nonneg sign]
    · obtain rfl : year = -1 := by omega
      rfl
  have yearOfEra : 0 ≤ year - year / 400 * 400 := by omega
  have exact : year / 400 * 146097 + ((year - year / 400 * 400) * 365 + (year - year / 400 * 400) / 4 -
      (year - year / 400 * 400) / 100 + dayOfYear) - 719468 =
        365 * year + year / 4 - year / 100 + year / 400 + dayOfYear - 719468 := by omega
  have small : -10 ^ 9 ≤ 365 * year + year / 4 - year / 100 + year / 400 + dayOfYear - 719468 ∧
      365 * year + year / 4 - year / 100 + year / 400 + dayOfYear - 719468 ≤ 2 ^ 50 := by omega
  rw [era, Int.tdiv_eq_ediv_of_nonneg yearOfEra, Int.tdiv_eq_ediv_of_nonneg yearOfEra, exact, wrapI64_of_bounds]
  · omega
  · omega

theorem monthLength_le (year month : Nat) : monthLength year month ≤ 31 := by
  rw [monthLength.eq_def]
  split <;> try split
  all_goals omega

/-- The days before the first of March, counted from January and from March. -/
theorem daysBeforeYear_march (year : Nat) :
    (daysBeforeYear year : Int) =
      365 * ((year : Int) - 1) + ((year : Int) - 1) / 4 - ((year : Int) - 1) / 100 +
        ((year : Int) - 1) / 400 + 366 := by
  have years := daysBeforeYear_eq year
  omega

theorem daysFromCivil_date (date : Date) (bounded : date.year ≤ 2 ^ 40) :
    daysFromCivil date.year date.month date.day = .ok ((date.dayNumber : Int) - Date.epoch.dayNumber) := by
  obtain ⟨year, month, day, isMonth, isDay⟩ := date
  dsimp only at bounded ⊢
  have inMonth := isDay.2.trans (monthLength_le year month)
  have epoch : Date.epoch.dayNumber = 719528 := by decide +kernel
  have accepted : ¬(¬(1 ≤ (month : Int) ∧ (month : Int) ≤ 12) ∨ ¬(1 ≤ (day : Int) ∧ (day : Int) ≤ 31)) := by
    omega
  have wrapped : wrapI64 ((year : Int) - if (month : Int) ≤ 2 then 1 else 0) =
      year - if (month : Int) ≤ 2 then 1 else 0 := by
    apply wrapI64_of_bounds
    all_goals split_ifs <;> omega
  have bounds : -1 ≤ (year : Int) - (if (month : Int) ≤ 2 then 1 else 0) ∧
      (year : Int) - (if (month : Int) ≤ 2 then 1 else 0) ≤ 2 ^ 40 := by
    split_ifs <;> omega
  have months : 0 ≤ 153 * ((month : Int) + if 2 < (month : Int) then -3 else 9) + 2 := by split_ifs <;> omega
  have inYear : 0 ≤ (153 * ((month : Int) + if 2 < (month : Int) then -3 else 9) + 2) / 5 + day - 1 ∧
      (153 * ((month : Int) + if 2 < (month : Int) then -3 else 9) + 2) / 5 + day - 1 ≤ 400 := by
    split_ifs <;> omega
  rw [daysFromCivil, if_neg accepted]
  simp only [wrapped, Int.tdiv_eq_ediv_of_nonneg months]
  rw [marchDays bounds.1 bounds.2 inYear, epoch]
  congr 1
  simp only [Date.dayNumber]
  clear wrapped bounds months inYear accepted epoch
  by_cases early : month ≤ 2
  · -- January and February count with the March year before
    have before := daysBeforeYear_march year
    have early' : (month : Int) ≤ 2 := by omega
    have notLate : ¬(2 : Int) < month := by omega
    simp only [early', if_true, notLate, if_false]
    generalize 365 * ((year : Int) - 1) + ((year : Int) - 1) / 4 - ((year : Int) - 1) / 100 +
      ((year : Int) - 1) / 400 = march at before ⊢
    obtain rfl | rfl : month = 1 ∨ month = 2 := by omega
    · have months : daysOfMonths year (1 - 1) = 0 := rfl
      omega
    · have months : daysOfMonths year (2 - 1) = 31 := rfl
      omega
  · have after := daysBeforeYear_march (year + 1)
    have late : (2 : Int) < month := by omega
    have notEarly : ¬(month : Int) ≤ 2 := by omega
    simp only [notEarly, late, if_true, if_false, sub_zero]
    push_cast [daysBeforeYear, add_sub_cancel_right] at after
    generalize 365 * (year : Int) + (year : Int) / 4 - (year : Int) / 100 + (year : Int) / 400 = march at after ⊢
    have months := daysOfMonths_march year isMonth.2 (by omega)
    omega

/-! ## The instant read back -/

theorem saturateI64_of_bounds {value : Int} (lower : i64Min ≤ value) (upper : value ≤ i64Max) :
    saturateI64 value = value := by
  rw [saturateI64, min_eq_right upper, max_eq_right lower]

namespace UtcTime

variable {time : UtcTime} {spelling : UtcSpelling time}

theorem timeOfDay_lt (time : UtcTime) : time.timeOfDay < dayMicros := by
  have hour := time.hour.isLt
  have minute := time.minute.isLt
  have second := time.second.isLt
  have micros := time.micros.isLt
  rw [timeOfDay, dayMicros]
  omega

theorem year_le (fits : time.instant ≤ i64Max) : time.date.year ≤ 2 ^ 40 := by
  have years := daysBeforeYear_eq time.date.year
  have epoch : Date.epoch.dayNumber = 719528 := by decide +kernel
  simp only [instant, Date.dayNumber, dayMicros, i64Max] at fits epoch
  omega

theorem instant_lower (time : UtcTime) : -10 ^ 17 ≤ time.instant := by
  have epoch : Date.epoch.dayNumber = 719528 := by decide +kernel
  rw [instant, epoch, dayMicros]
  omega

theorem mem_dateText (member : c ∈ time.dateText) : c.isDigit = true ∨ c = '-' := by
  simp only [dateText, List.mem_append, List.mem_cons] at member
  rcases member with digit | dash | digit | dash | digit
  · exact .inl (isDigit_of_mem_paddedNumber digit)
  · exact .inr dash
  · exact .inl (isDigit_of_mem_paddedNumber digit)
  · exact .inr dash
  · exact .inl (isDigit_of_mem_paddedNumber digit)

theorem mem_secondText (member : c ∈ time.secondText spelling) : c.isDigit = true ∨ c = '.' := by
  rw [secondText, List.mem_append] at member
  rcases member with digit | digit
  · exact .inl (isDigit_of_mem_paddedNumber digit)
  · by_cases absent : spelling.fraction = []
    · rw [if_pos absent] at digit
      cases digit
    · rw [if_neg absent, List.mem_cons] at digit
      exact digit.symm.imp_left (spelling.isFraction c)

theorem mem_clockText (member : c ∈ time.clockText spelling) :
    c.isDigit = true ∨ c = ':' ∨ c = '.' := by
  simp only [clockText, List.mem_append, List.mem_cons] at member
  rcases member with digit | colon | digit | colon | digit
  · exact .inl (isDigit_of_mem_paddedNumber digit)
  · exact .inr (.inl colon)
  · exact .inl (isDigit_of_mem_paddedNumber digit)
  · exact .inr (.inl colon)
  · exact (mem_secondText digit).imp_right .inr

theorem absent_dateText (notDigit : c.isDigit = false) (notDash : c ≠ '-') : c ∉ time.dateText := by
  intro member
  rcases mem_dateText member with digit | dash
  · exact Bool.noConfusion (notDigit.symm.trans digit)
  · exact notDash dash

theorem absent_clockText (notDigit : c.isDigit = false) (notColon : c ≠ ':') (notPoint : c ≠ '.') :
    c ∉ time.clockText spelling := by
  intro member
  rcases mem_clockText member with digit | colon | point
  · exact Bool.noConfusion (notDigit.symm.trans digit)
  · exact notColon colon
  · exact notPoint point

theorem absent_paddedNumber (notDigit : c.isDigit = false) (width value : Nat) :
    c ∉ paddedNumber width value := by
  intro member
  exact Bool.noConfusion (notDigit.symm.trans (isDigit_of_mem_paddedNumber member))

theorem splitOn_dateText (time : UtcTime) :
    time.dateText.splitOn '-' =
      [paddedNumber 4 time.date.year, paddedNumber 2 time.date.month, paddedNumber 2 time.date.day] := by
  rw [dateText, List.splitOn_append_cons_self_of_not_mem (absent_paddedNumber rfl _ _),
    List.splitOn_append_cons_self_of_not_mem (absent_paddedNumber rfl _ _),
    List.splitOn_eq_singleton (absent_paddedNumber rfl _ _)]

theorem splitOn_clockText (spelling : UtcSpelling time) :
    (time.clockText spelling).splitOn ':' =
      [paddedNumber 2 time.hour, paddedNumber 2 time.minute, time.secondText spelling] := by
  have noColon : ':' ∉ time.secondText spelling := by
    intro member
    rcases mem_secondText member with digit | point
    · cases digit
    · cases point
  rw [clockText, List.splitOn_append_cons_self_of_not_mem (absent_paddedNumber rfl _ _),
    List.splitOn_append_cons_self_of_not_mem (absent_paddedNumber rfl _ _), List.splitOn_eq_singleton noColon]

theorem splitOnce_text (spelling : UtcSpelling time) :
    (splitOnceAt 'T' (time.dateText ++ spelling.separator :: time.clockText spelling)).or
      (splitOnceAt ' ' (time.dateText ++ spelling.separator :: time.clockText spelling)) =
        some (time.dateText, time.clockText spelling) := by
  rcases spelling.isSeparator with letter | space
  · rw [letter, splitOnceAt_append (absent_dateText rfl (by decide))]
    rfl
  · have noLetter : 'T' ∉ time.dateText ++ ' ' :: time.clockText spelling := by
      rw [List.mem_append, List.mem_cons, not_or, not_or]
      exact ⟨absent_dateText rfl (by decide), by decide, absent_clockText rfl (by decide) (by decide)⟩
    rw [space, splitOnceAt_absent noLetter, splitOnceAt_append (absent_dateText rfl (by decide))]
    rfl

theorem parseSecondMicros_secondText (spelling : UtcSpelling time) (timestamp : List Char) :
    parseSecondMicros (time.secondText spelling) timestamp = .ok ((time.second : Int), (time.micros : Int)) := by
  have parts : (splitOnceAt '.' (time.secondText spelling)).getD (time.secondText spelling, []) =
      (paddedNumber 2 time.second, spelling.fraction) := by
    rw [secondText]
    by_cases absent : spelling.fraction = []
    · rw [if_pos absent, absent, List.append_nil, splitOnceAt_absent (absent_paddedNumber rfl _ _)]
      rfl
    · rw [if_neg absent, splitOnceAt_append (absent_paddedNumber rfl _ _)]
      rfl
  have wholeFraction : spelling.fraction.take 6 = spelling.fraction := List.take_of_length_le spelling.length
  have secondFits : ((time.second : Nat) : Int) ≤ i64Max := by
    have second := time.second.isLt
    rw [i64Max]
    omega
  have digits : ∀ c ∈ spelling.fraction ++ List.replicate (6 - spelling.fraction.length) '0', c.isDigit = true := by
    intro c member
    rcases List.mem_append.mp member with digit | zero
    · exact spelling.isFraction c digit
    · rw [List.eq_of_mem_replicate zero]
      rfl
  have sixDigits : spelling.fraction ++ List.replicate (6 - spelling.fraction.length) '0' ≠ [] := by
    intro empty
    have length := congrArg List.length empty
    rw [List.length_append, List.length_replicate, List.length_nil] at length
    omega
  have microsFit : (Nat.ofDigitChars 10 (spelling.fraction ++ List.replicate (6 - spelling.fraction.length) '0') 0 :
      Int) ≤ i64Max := by
    have micros := time.micros.isLt
    rw [spelling.denotes, i64Max]
    omega
  have reads := parseI64Text_digits sixDigits digits microsFit
  rw [spelling.denotes] at reads
  simp only [parseSecondMicros, parts, wholeFraction, parseI64Text_paddedNumber secondFits, reads, ok_bind]
  rfl

/-- Before the suffix there is neither a plus nor a capital zet. -/
theorem stripUtcSuffix_text (spelling : UtcSpelling time) :
    (((stripSuffix "+00:00".toList (time.text spelling)).or (stripSuffix "+00".toList (time.text spelling))).or
      (stripSuffix "Z".toList (time.text spelling))).getD (time.text spelling) =
        time.dateText ++ spelling.separator :: time.clockText spelling := by
  have absent : ∀ c, c.isDigit = false → c ≠ '-' → c ≠ 'T' → c ≠ ' ' → c ≠ ':' → c ≠ '.' →
      c ∉ time.dateText ++ spelling.separator :: time.clockText spelling := by
    intro c notDigit notDash notLetter notSpace notColon notPoint
    rw [List.mem_append, List.mem_cons, not_or, not_or]
    refine ⟨absent_dateText notDigit notDash, ?_, absent_clockText notDigit notColon notPoint⟩
    rcases spelling.isSeparator with letter | space
    · exact letter ▸ notLetter
    · exact space ▸ notSpace
  have plus := absent '+' rfl (by decide) (by decide) (by decide) (by decide) (by decide)
  have zulu := absent 'Z' rfl (by decide) (by decide) (by decide) (by decide) (by decide)
  exact stripUtcSuffix plus zulu spelling.isSuffix

theorem saturated_sum (time : UtcTime) (fits : time.instant ≤ i64Max) :
    saturateI64 (saturateI64 (saturateI64 (saturateI64
      (saturateI64 (((time.date.dayNumber : Int) - Date.epoch.dayNumber) * 86400000000) +
        saturateI64 ((time.hour : Nat) * 3600000000)) + saturateI64 ((time.minute : Nat) * 60000000)) +
        saturateI64 ((time.second : Nat) * 1000000)) + (time.micros : Nat)) = time.instant := by
  have lower := time.instant_lower
  have inDay := time.timeOfDay_lt
  have hour := time.hour.isLt
  have minute := time.minute.isLt
  have second := time.second.isLt
  have micros := time.micros.isLt
  have parts : (time.timeOfDay : Int) = (time.hour : Nat) * 3600000000 + (time.minute : Nat) * 60000000 +
      (time.second : Nat) * 1000000 + (time.micros : Nat) := by
    rw [timeOfDay]
    omega
  have whole : time.instant = ((time.date.dayNumber : Int) - Date.epoch.dayNumber) * 86400000000 +
      time.timeOfDay := rfl
  rw [dayMicros] at inDay
  rw [i64Max] at fits
  generalize ((time.date.dayNumber : Int) - Date.epoch.dayNumber) * 86400000000 = days at whole ⊢
  have bounds : ∀ {value : Int}, -10 ^ 18 ≤ value → value ≤ 2 ^ 63 - 1 → saturateI64 value = value := by
    intro value above below
    exact saturateI64_of_bounds (by rw [i64Min]; omega) (by rw [i64Max]; omega)
  have days_eq : saturateI64 days = days := bounds (by omega) (by omega)
  have hour_eq : saturateI64 ((time.hour : Nat) * 3600000000) = (time.hour : Nat) * 3600000000 :=
    bounds (by omega) (by omega)
  have minute_eq : saturateI64 ((time.minute : Nat) * 60000000) = (time.minute : Nat) * 60000000 :=
    bounds (by omega) (by omega)
  have second_eq : saturateI64 ((time.second : Nat) * 1000000) = (time.second : Nat) * 1000000 :=
    bounds (by omega) (by omega)
  have hours : saturateI64 (days + (time.hour : Nat) * 3600000000) = days + (time.hour : Nat) * 3600000000 :=
    bounds (by omega) (by omega)
  rw [days_eq, hour_eq, minute_eq, second_eq, hours]
  have minutes : saturateI64 (days + (time.hour : Nat) * 3600000000 + (time.minute : Nat) * 60000000) = _ :=
    bounds (by omega) (by omega)
  have seconds : saturateI64 (days + (time.hour : Nat) * 3600000000 + (time.minute : Nat) * 60000000 +
      (time.second : Nat) * 1000000) = _ :=
    bounds (by omega) (by omega)
  rw [minutes, seconds, bounds]
  all_goals omega

theorem parse_text (spelling : UtcSpelling time) (fits : time.instant ≤ i64Max) :
    parseDucklakeUtcTimestampMicros (time.text spelling) = .ok time.instant := by
  have year := year_le fits
  have small : ∀ value : Nat, value ≤ 2 ^ 40 → (value : Int) ≤ i64Max := by
    intro value bounded
    rw [i64Max]
    omega
  have month := small time.date.month (time.date.isMonth.2.trans (by decide))
  have day := small time.date.day ((time.date.isDay.2.trans (monthLength_le _ _)).trans (by decide))
  have hour := small time.hour (time.hour.isLt.le.trans (by decide))
  have minute := small time.minute (time.minute.isLt.le.trans (by decide))
  simp only [parseDucklakeUtcTimestampMicros, stripUtcSuffix_text, splitOnce_text, splitOn_dateText,
    splitOn_clockText, List.getElem?_cons_zero, List.getElem?_cons_succ, List.getElem?_nil, parseI64Part,
    parseI64Text_paddedNumber (small _ year), parseI64Text_paddedNumber month, parseI64Text_paddedNumber day,
    parseI64Text_paddedNumber hour, parseI64Text_paddedNumber minute, ok_bind, Option.isSome_none,
    Bool.false_eq_true, if_false, parseSecondMicros_secondText, daysFromCivil_date time.date year,
    time.saturated_sum fits]
  rfl

/-! ## Instants in order -/

variable {left right : UtcTime}

/-- The date first, then the time of day. -/
def key (time : UtcTime) : (Nat ×ₗ (Nat ×ₗ Nat)) ×ₗ Nat := toLex (time.date.key, time.timeOfDay)

theorem instant_lt_iff : left.instant < right.instant ↔ left.key < right.key := by
  have leftOfDay := left.timeOfDay_lt
  have rightOfDay := right.timeOfDay_lt
  simp only [key, Prod.Lex.toLex_lt_toLex, ← Date.dayNumber_lt_iff, Date.key_inj, ← Date.dayNumber_inj, instant,
    dayMicros] at leftOfDay rightOfDay ⊢
  omega

theorem instant_inj : left.instant = right.instant ↔ left.date = right.date ∧ left.timeOfDay = right.timeOfDay := by
  have leftOfDay := left.timeOfDay_lt
  have rightOfDay := right.timeOfDay_lt
  rw [← Date.dayNumber_inj]
  simp only [instant, dayMicros] at leftOfDay rightOfDay ⊢
  omega

def nextDay (time : UtcTime) : UtcTime := { time with date := time.date.next }

theorem instant_nextDay (time : UtcTime) : time.nextDay.instant = time.instant + dayMicros := by
  have sameTime : time.nextDay.timeOfDay = time.timeOfDay := rfl
  have next : time.nextDay.date.dayNumber = time.date.dayNumber + 1 := time.date.dayNumber_next
  rw [instant, instant, sameTime, next, dayMicros]
  omega

end UtcTime

/-- The cutoff is the instant, however it is written: cutoffs are ordered as dates and times of day are, one
instant has one cutoff, and the next day is a day later. -/
theorem parseDucklakeUtcTimestampMicros_exact (time other : UtcTime) (spelling : UtcSpelling time)
    (otherSpelling : UtcSpelling other) (fits : time.instant ≤ i64Max) (otherFits : other.instant ≤ i64Max) :
    ∃ cutoff otherCutoff,
      parseDucklakeUtcTimestampMicros (time.text spelling) = .ok cutoff ∧ cutoff = time.instant ∧
      parseDucklakeUtcTimestampMicros (other.text otherSpelling) = .ok otherCutoff ∧
      (cutoff < otherCutoff ↔ time.key < other.key) ∧
      (cutoff = otherCutoff ↔ time.date = other.date ∧ time.timeOfDay = other.timeOfDay) ∧
      (other = time.nextDay → otherCutoff = cutoff + 86400000000) := by
  refine ⟨time.instant, other.instant, UtcTime.parse_text spelling fits, rfl,
    UtcTime.parse_text otherSpelling otherFits, UtcTime.instant_lt_iff, UtcTime.instant_inj, ?_⟩
  rintro rfl
  exact time.instant_nextDay

/-- The last instant of a leap day, and the one a day later. -/
def leapNight : UtcTime :=
  { date := ⟨2024, 2, 29, by decide, by decide⟩
    hour := 23
    minute := 59
    second := 59
    micros := 999999 }

def spacedSpelling : UtcSpelling leapNight :=
  { separator := ' '
    isSeparator := .inr rfl
    fraction := List.replicate 6 '9'
    isFraction := fun _ member => List.eq_of_mem_replicate member ▸ rfl
    length := by decide
    denotes := by decide
    suffix := "+00".toList
    isSuffix := .inr (.inr (.inl rfl)) }

def nextSpelling : UtcSpelling leapNight.nextDay :=
  { spacedSpelling with denotes := spacedSpelling.denotes }

theorem parseDucklakeUtcTimestampMicros_leapNight :
    leapNight.text spacedSpelling = "2024-02-29 23:59:59.999999+00".toList ∧
    leapNight.nextDay.text nextSpelling = "2024-03-01 23:59:59.999999+00".toList ∧
    ∃ cutoff otherCutoff,
      parseDucklakeUtcTimestampMicros (leapNight.text spacedSpelling) = .ok cutoff ∧ cutoff = leapNight.instant ∧
      parseDucklakeUtcTimestampMicros (leapNight.nextDay.text nextSpelling) = .ok otherCutoff ∧
      (cutoff < otherCutoff ↔ leapNight.key < leapNight.nextDay.key) ∧
      (cutoff = otherCutoff ↔
        leapNight.date = leapNight.nextDay.date ∧ leapNight.timeOfDay = leapNight.nextDay.timeOfDay) ∧
      (leapNight.nextDay = leapNight.nextDay → otherCutoff = cutoff + 86400000000) :=
  ⟨rfl, rfl,
    parseDucklakeUtcTimestampMicros_exact leapNight leapNight.nextDay spacedSpelling nextSpelling
      (by decide +kernel) (by decide +kernel)⟩

end DucklakeCatalog
