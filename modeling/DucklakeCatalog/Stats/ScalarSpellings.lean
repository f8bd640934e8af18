import DucklakeCatalog.Stats.ScalarValues
import Mathlib.Data.List.TakeWhile
import Mathlib.Tactic.Ring

/-! The texts that spell integers and decimals, the numbers they denote, and which of them are parsed. -/
namespace DucklakeCatalog

open ScalarOrder

/-! ## Spellings -/

inductive SignMark where
  | absent
  | plus
  | minus
  deriving DecidableEq

namespace SignMark

def text : SignMark → List Char
  | .absent => []
  | .plus => ['+']
  | .minus => ['-']

def isMinus (sign : SignMark) : Bool := sign = .minus

def signed {α : Type} [Neg α] (sign : SignMark) (magnitude : α) : α :=
  if sign.isMinus then -magnitude else magnitude

end SignMark

/-- A run of digits. -/
def IsNumeral (digits : List Char) : Prop := digits ≠ [] ∧ ∀ c ∈ digits, c.isDigit = true

def numeralValue (digits : List Char) : Nat := Nat.ofDigitChars 10 digits 0

def FitsI64 (value : Int) : Prop := -2 ^ 63 ≤ value ∧ value < 2 ^ 63

instance (value : Int) : Decidable (FitsI64 value) := inferInstanceAs (Decidable (_ ∧ _))

/-- Blanks, a sign, digits, blanks. -/
structure IntegerSpelling where
  before : List Char
  sign : SignMark
  digits : List Char
  after : List Char
  blank : ∀ c ∈ before ++ after, isWhiteSpace c = true
  isNumeral : IsNumeral digits

def IntegerSpelling.text (spelling : IntegerSpelling) : List Char :=
  spelling.before ++ (spelling.sign.text ++ spelling.digits) ++ spelling.after

def IntegerSpelling.value (spelling : IntegerSpelling) : Int :=
  spelling.sign.signed (numeralValue spelling.digits : Int)

structure ExponentSpelling where
  mark : Char
  sign : SignMark
  digits : List Char
  isMark : isExponentMark mark = true
  isNumeral : IsNumeral digits

def ExponentSpelling.value (exponent : ExponentSpelling) : Int :=
  exponent.sign.signed (numeralValue exponent.digits : Int)

/-- Blanks, a sign, digits with or without a point, an exponent or none, blanks. Without a point
there is no fraction; with one it can be empty, but not both sides of the point. -/
structure DecimalSpelling where
  before : List Char
  sign : SignMark
  integer : List Char
  fraction : Option (List Char)
  exponent : Option ExponentSpelling
  after : List Char
  blank : ∀ c ∈ before ++ after, isWhiteSpace c = true
  isNumeral : IsNumeral (integer ++ fraction.getD [])

namespace DecimalSpelling

variable (spelling : DecimalSpelling)

def digits : List Char := spelling.integer ++ spelling.fraction.getD []

def mantissa : List Char :=
  match spelling.fraction with
  | none => spelling.integer
  | some fraction => spelling.integer ++ '.' :: fraction

def exponentText : List Char :=
  match spelling.exponent with
  | none => []
  | some exponent => exponent.mark :: (exponent.sign.text ++ exponent.digits)

def text : List Char :=
  spelling.before ++ (spelling.sign.text ++ (spelling.mantissa ++ spelling.exponentText)) ++ spelling.after

def exponentValue : Int := spelling.exponent.elim 0 ExponentSpelling.value

/-- The power of ten the last digit counts. -/
def power : Int := spelling.exponentValue - (spelling.fraction.getD []).length

def value : ℚ := spelling.sign.signed ((numeralValue spelling.digits : ℚ) * 10 ^ spelling.power)

/-- The zeros after the last digit that is not one. -/
def trailingZeros : Nat := ((spelling.digits.map scalarDigit).rtakeWhile (· = 0)).length

/-- Every power the parser counts in fits. -/
def Counted : Prop :=
  FitsI64 spelling.exponentValue ∧ FitsI64 spelling.power ∧
    (numeralValue spelling.digits ≠ 0 → FitsI64 (spelling.power + spelling.trailingZeros))

end DecimalSpelling

/-! ## Blanks and signs -/

variable {c : Char} {digits : List Char} {text : String}

theorem isWhiteSpace_of_printed (printed : 32 < c.toNat ∧ c.toNat < 127) : isWhiteSpace c = false := by
  simp only [isWhiteSpace, List.mem_cons, List.not_mem_nil, or_false, Bool.or_eq_false_iff, Bool.and_eq_false_iff,
    decide_eq_false_iff_not]
  omega

theorem toNat_of_isDigit (digit : c.isDigit = true) : 48 ≤ c.toNat ∧ c.toNat ≤ 57 := by
  simp only [Char.isDigit, Bool.and_eq_true, decide_eq_true_eq, UInt32.le_iff_toNat_le] at digit
  exact digit

theorem isWhiteSpace_of_isDigit (digit : c.isDigit = true) : isWhiteSpace c = false := by
  have range := toNat_of_isDigit digit
  exact isWhiteSpace_of_printed (by omega)

theorem isWhiteSpace_of_sign {sign : SignMark} (member : c ∈ sign.text) : isWhiteSpace c = false := by
  cases sign with
  | absent => cases member
  | plus
  | minus => exact List.mem_singleton.mp member ▸ rfl

theorem isWhiteSpace_of_mark (isMark : isExponentMark c = true) : isWhiteSpace c = false := by
  rw [isExponentMark, Bool.or_eq_true, decide_eq_true_eq, decide_eq_true_eq] at isMark
  rcases isMark with rfl | rfl
  · rfl
  · rfl

theorem dropWhile_blank {front core : List Char} (blank : ∀ c ∈ front, isWhiteSpace c = true)
    (printed : ∀ c ∈ core, isWhiteSpace c = false) : (front ++ core).dropWhile isWhiteSpace = core := by
  rw [List.dropWhile_append_of_pos blank]
  cases core with
  | nil => rfl
  | cons first rest =>
    have kept := printed first List.mem_cons_self
    rw [List.dropWhile_cons_of_neg (by rw [kept]; exact Bool.false_ne_true)]

theorem trimmed_padded {before core after : List Char} (blank : ∀ c ∈ before ++ after, isWhiteSpace c = true)
    (some : core ≠ []) (printed : ∀ c ∈ core, isWhiteSpace c = false) :
    trimmed (before ++ core ++ after) = core := by
  have front : (before ++ core ++ after).dropWhile isWhiteSpace = core ++ after := by
    rw [List.append_assoc, List.dropWhile_append_of_pos fun c member => blank c (List.mem_append_left _ member)]
    cases core with
    | nil => exact absurd rfl some
    | cons first rest =>
      have kept := printed first List.mem_cons_self
      rw [List.cons_append, List.dropWhile_cons_of_neg (by rw [kept]; exact Bool.false_ne_true)]
  have back : (core ++ after).rdropWhile isWhiteSpace = core := by
    rw [List.rdropWhile, List.reverse_append, dropWhile_blank, List.reverse_reverse]
    · intro c member
      exact blank c (List.mem_append_right _ (List.mem_reverse.mp member))
    · intro c member
      exact printed c (List.mem_reverse.mp member)
  rw [trimmed, front, back]

/-- A text is its trimmed part between blanks. -/
theorem exists_padded (text : List Char) :
    ∃ before after, text = before ++ trimmed text ++ after ∧ ∀ c ∈ before ++ after, isWhiteSpace c = true := by
  refine ⟨text.takeWhile isWhiteSpace, (text.dropWhile isWhiteSpace).rtakeWhile isWhiteSpace, ?_, ?_⟩
  · rw [trimmed, List.append_assoc, List.rdropWhile_append_rtakeWhile, List.takeWhile_append_dropWhile]
  · intro c member
    rcases List.mem_append.mp member with front | back
    · exact List.mem_takeWhile_imp front
    · exact List.mem_rtakeWhile_imp back

theorem splitSign_text (sign : SignMark) {rest : List Char} (unsigned : ∀ c ∈ rest.head?, c ≠ '-' ∧ c ≠ '+') :
    splitSign (sign.text ++ rest) = (sign.isMinus, rest) := by
  cases sign with
  | plus => rfl
  | minus => rfl
  | absent =>
    cases rest with
    | nil => rfl
    | cons first rest =>
      obtain ⟨notMinus, notPlus⟩ := unsigned first rfl
      rw [SignMark.text, List.nil_append, splitSign.eq_3]
      · rfl
      · rintro digits same
        exact notMinus (List.cons.inj same).1
      · rintro digits same
        exact notPlus (List.cons.inj same).1

theorem exists_sign (value : List Char) :
    ∃ sign : SignMark, value = sign.text ++ (splitSign value).2 ∧ (splitSign value).1 = sign.isMinus := by
  rw [splitSign.eq_def]
  split
  · exact ⟨.minus, rfl, rfl⟩
  · exact ⟨.plus, rfl, rfl⟩
  · exact ⟨.absent, rfl, rfl⟩

theorem head?_unsigned (all : ∀ c ∈ digits, c.isDigit = true) :
    ∀ c ∈ digits.head?, c ≠ '-' ∧ c ≠ '+' := by
  intro c head
  have digit := all c (List.mem_of_mem_head? head)
  constructor
  · rintro rfl
    cases digit
  · rintro rfl
    cases digit

theorem parseUnsignedDigits_eq_some {magnitude : Nat} :
    parseUnsignedDigits digits = some magnitude ↔ IsNumeral digits ∧ magnitude = numeralValue digits := by
  have value : digits.foldl (fun value digit => 10 * value + scalarDigit digit) 0 = numeralValue digits := rfl
  simp only [parseUnsignedDigits, value, IsNumeral, List.all_eq_true]
  constructor
  · intro parsed
    split at parsed
    · rename_i isNumeral
      exact ⟨isNumeral, (Option.some.inj parsed).symm⟩
    · cases parsed
  · rintro ⟨isNumeral, rfl⟩
    rw [if_pos isNumeral]

/-! ## Integers -/

namespace IntegerSpelling

theorem trimmed_text (spelling : IntegerSpelling) : trimmed spelling.text = spelling.sign.text ++ spelling.digits := by
  apply trimmed_padded spelling.blank
  · exact List.append_ne_nil_of_right_ne_nil _ spelling.isNumeral.1
  · intro c member
    rcases List.mem_append.mp member with sign | digit
    · exact isWhiteSpace_of_sign sign
    · exact isWhiteSpace_of_isDigit (spelling.isNumeral.2 c digit)

theorem splitSign_trimmed (spelling : IntegerSpelling) :
    splitSign (trimmed spelling.text) = (spelling.sign.isMinus, spelling.digits) := by
  rw [spelling.trimmed_text, splitSign_text _ (head?_unsigned spelling.isNumeral.2)]

end IntegerSpelling

/-- A text that is parsed is spelled, and the number is the one it spells. -/
theorem parseInteger_spelled {bits : Nat} {signed : Bool} {number : ExactInteger}
    (parsed : parseInteger text bits signed = some number) :
    (∃ spelling : IntegerSpelling, spelling.text = text.toList) ∧
      ∀ spelling : IntegerSpelling, spelling.text = text.toList → number.value = spelling.value := by
  simp only [parseInteger, bind, Option.bind_eq_some_iff, Option.filter_eq_some_iff, parseUnsignedDigits_eq_some]
    at parsed
  obtain ⟨magnitude, ⟨⟨isNumeral, magnitude_eq⟩, -⟩, limit, -, built⟩ := parsed
  split at built
  · cases built
  have same := Option.some.inj built
  constructor
  · obtain ⟨before, after, padded, blank⟩ := exists_padded text.toList
    obtain ⟨sign, marked, -⟩ := exists_sign (trimmed text.toList)
    refine ⟨⟨before, sign, _, after, blank, isNumeral⟩, ?_⟩
    rw [IntegerSpelling.text, ← marked, ← padded]
  · intro spelling spelled
    rw [← spelled, spelling.splitSign_trimmed] at magnitude_eq same
    rw [← same, ExactInteger.value, IntegerSpelling.value, SignMark.signed, magnitude_eq]
    cases spelling.sign.isMinus with
    | false => rfl
    | true =>
      by_cases zero : numeralValue spelling.digits = 0
      · simp [zero]
      · simp [zero]

/-! ## Exponents -/

theorem checkedI64_eq_some {value result : Int} :
    checkedI64 value = some result ↔ FitsI64 value ∧ value = result := by
  rw [checkedI64, Option.ite_none_right_eq_some, Option.some.injEq]
  rfl

theorem parseI64_text (sign : SignMark) (isNumeral : IsNumeral digits) :
    parseI64 (sign.text ++ digits) = checkedI64 (sign.signed (numeralValue digits : Int)) := by
  have magnitude := parseUnsignedDigits_eq_some.mpr ⟨isNumeral, rfl⟩
  rw [parseI64, splitSign_text sign (head?_unsigned isNumeral.2)]
  simp only [magnitude, bind, Option.bind_some, SignMark.signed]

theorem exists_exponent {value : List Char} {exponent : Int} (parsed : parseI64 value = some exponent) :
    ∃ (sign : SignMark) (digits : List Char), IsNumeral digits ∧ value = sign.text ++ digits := by
  simp only [parseI64, bind, Option.bind_eq_some_iff, parseUnsignedDigits_eq_some] at parsed
  obtain ⟨magnitude, ⟨isNumeral, -⟩, -⟩ := parsed
  obtain ⟨sign, marked, -⟩ := exists_sign value
  exact ⟨sign, _, isNumeral, marked⟩

theorem not_mark_of_isDigit (digit : c.isDigit = true) : isExponentMark c = false := by
  rw [isExponentMark, Bool.or_eq_false_iff, decide_eq_false_iff_not, decide_eq_false_iff_not]
  constructor
  · rintro rfl
    cases digit
  · rintro rfl
    cases digit

theorem not_mark_of_sign {sign : SignMark} (member : c ∈ sign.text) : isExponentMark c = false := by
  cases sign with
  | absent => cases member
  | plus
  | minus => exact List.mem_singleton.mp member ▸ rfl

namespace DecimalSpelling

variable (spelling : DecimalSpelling)

theorem mem_mantissa (member : c ∈ spelling.mantissa) : c.isDigit = true ∨ c = '.' := by
  rw [mantissa] at member
  have digits := spelling.isNumeral.2
  cases fraction : spelling.fraction with
  | none =>
    rw [fraction] at member digits
    exact .inl (digits c (List.mem_append_left _ member))
  | some front =>
    rw [fraction] at member digits
    rcases List.mem_append.mp member with integer | rest
    · exact .inl (digits c (List.mem_append_left _ integer))
    · rcases List.mem_cons.mp rest with point | digit
      · exact .inr point
      · exact .inl (digits c (List.mem_append_right _ digit))

theorem not_mark_of_mantissa (member : c ∈ spelling.mantissa) : isExponentMark c = false := by
  rcases spelling.mem_mantissa member with digit | rfl
  · exact not_mark_of_isDigit digit
  · rfl

theorem splitDecimalExponent_text :
    splitDecimalExponent (spelling.mantissa ++ spelling.exponentText) =
      (checkedI64 spelling.exponentValue).map fun exponent => (spelling.mantissa, exponent) := by
  have front : ∀ c ∈ spelling.mantissa, (!isExponentMark c) = true := by
    intro c member
    rw [spelling.not_mark_of_mantissa member]
    rfl
  cases shape : spelling.exponent with
  | none =>
    have absent : spelling.mantissa.dropWhile (fun c => !isExponentMark c) = [] := List.dropWhile_eq_nil_iff.mpr front
    simp only [splitDecimalExponent, exponentText, exponentValue, shape, List.append_nil, absent, Option.elim_none]
    rfl
  | some exponent =>
    have marked : exponent.mark :: (exponent.sign.text ++ exponent.digits) =
        (exponent.mark :: (exponent.sign.text ++ exponent.digits)).dropWhile (fun c => !isExponentMark c) := by
      rw [List.dropWhile_cons_of_neg (by simp [exponent.isMark])]
    have single : (exponent.sign.text ++ exponent.digits).any isExponentMark = false := by
      rw [List.any_eq_false]
      intro c member
      rw [Bool.not_eq_true]
      rcases List.mem_append.mp member with sign | digit
      · exact not_mark_of_sign sign
      · exact not_mark_of_isDigit (exponent.isNumeral.2 c digit)
    have before : (exponent.mark :: (exponent.sign.text ++ exponent.digits)).takeWhile (fun c => !isExponentMark c) =
        [] := by
      rw [List.takeWhile_cons_of_neg (by simp [exponent.isMark])]
    simp only [splitDecimalExponent, exponentText, exponentValue, shape, List.dropWhile_append_of_pos front, ← marked,
      single, List.takeWhile_append_of_pos front, before, List.append_nil, parseI64_text _ exponent.isNumeral,
      Option.elim_some, Bool.false_eq_true, if_false]
    rfl

theorem splitMantissa_text :
    splitMantissa spelling.mantissa = some (spelling.integer, spelling.fraction.getD []) := by
  have digits := spelling.isNumeral.2
  have front : ∀ c ∈ spelling.integer, decide (c ≠ '.') = true := by
    intro c member
    have digit := digits c (List.mem_append_left _ member)
    apply decide_eq_true
    rintro rfl
    cases digit
  have noPoint : '.' ∉ spelling.fraction.getD [] := by
    intro member
    cases digits '.' (List.mem_append_right _ member)
  have parts : spelling.mantissa.takeWhile (· ≠ '.') = spelling.integer ∧
      (spelling.mantissa.dropWhile (· ≠ '.')).tail = spelling.fraction.getD [] := by
    rw [mantissa]
    cases spelling.fraction with
    | none =>
      rw [List.takeWhile_eq_self_iff.mpr front, List.dropWhile_eq_nil_iff.mpr front]
      exact ⟨rfl, rfl⟩
    | some fraction =>
      rw [List.takeWhile_append_of_pos front, List.dropWhile_append_of_pos front]
      simp
  have some : ¬(spelling.integer = [] ∧ spelling.fraction.getD [] = []) := by
    rintro ⟨noInteger, noFraction⟩
    exact spelling.isNumeral.1 (by rw [noInteger, noFraction, List.nil_append])
  have all : (spelling.integer ++ spelling.fraction.getD []).all Char.isDigit = true := List.all_eq_true.mpr digits
  simp only [splitMantissa, parts.1, parts.2, noPoint, some, all, Bool.not_true, Bool.false_eq_true, or_self, if_false]

end DecimalSpelling

theorem exists_mantissa {mantissa integer fractional : List Char}
    (splits : splitMantissa mantissa = some (integer, fractional)) :
    ∃ fraction : Option (List Char), fraction.getD [] = fractional ∧ IsNumeral (integer ++ fraction.getD []) ∧
      mantissa = match fraction with
        | none => integer
        | some fraction => integer ++ '.' :: fraction := by
  have digits := splitMantissa_digits splits
  rw [splitMantissa, Option.ite_none_left_eq_some] at splits
  obtain ⟨accepted, parts⟩ := splits
  obtain ⟨integer_eq, fractional_eq⟩ := Prod.mk.inj (Option.some.inj parts)
  rw [integer_eq, fractional_eq] at accepted
  have some : integer ++ fractional ≠ [] := by
    intro empty
    exact accepted (.inr (.inl (List.append_eq_nil_iff.mp empty)))
  have joined := List.takeWhile_append_dropWhile (p := fun c => decide (c ≠ '.')) (l := mantissa)
  cases rest : mantissa.dropWhile (fun c => decide (c ≠ '.')) with
  | nil =>
    rw [rest] at fractional_eq joined
    subst fractional_eq
    refine ⟨none, rfl, ⟨some, digits⟩, ?_⟩
    rw [List.append_nil, integer_eq] at joined
    exact joined.symm
  | cons point after =>
    have isPoint := List.head?_dropWhile_not (fun c => decide (c ≠ '.')) mantissa
    rw [rest] at fractional_eq joined isPoint
    obtain rfl : point = '.' := by simpa using isPoint
    obtain rfl : after = fractional := fractional_eq
    refine ⟨Option.some after, rfl, ⟨some, digits⟩, ?_⟩
    rw [integer_eq] at joined
    exact joined.symm


theorem exists_exponentText {value mantissa : List Char} {exponent : Int}
    (splits : splitDecimalExponent value = some (mantissa, exponent)) :
    ∃ exponent : Option ExponentSpelling, value = mantissa ++ match exponent with
      | none => []
      | some exponent => exponent.mark :: (exponent.sign.text ++ exponent.digits) := by
  have joined := List.takeWhile_append_dropWhile (p := fun c => !isExponentMark c) (l := value)
  rw [splitDecimalExponent] at splits
  cases rest : value.dropWhile (fun c => !isExponentMark c) with
  | nil =>
    rw [rest] at splits
    obtain ⟨rfl, -⟩ := Prod.mk.inj (Option.some.inj splits)
    exact ⟨none, (List.append_nil _).symm⟩
  | cons mark after =>
    have isMark := List.head?_dropWhile_not (fun c => !isExponentMark c) value
    rw [rest] at splits joined isMark
    dsimp only at splits
    split at splits
    · cases splits
    · obtain ⟨parsed, read, same⟩ := Option.map_eq_some_iff.mp splits
      obtain ⟨sign, digits, isNumeral, rfl⟩ := exists_exponent read
      obtain ⟨rfl, -⟩ := Prod.mk.inj same
      have isMark : isExponentMark mark = true := by simpa using isMark
      exact ⟨some ⟨mark, sign, digits, isMark, isNumeral⟩, joined.symm⟩

theorem exists_decimalSpelling {number : ExactDecimal}
    (parsed : ExactDecimal.parse text = some number) : ∃ spelling : DecimalSpelling, spelling.text = text.toList := by
  simp only [ExactDecimal.parse, bind, Option.bind_eq_some_iff] at parsed
  obtain ⟨⟨mantissa, exponent⟩, splits, ⟨integer, fractional⟩, parts, -⟩ := parsed
  obtain ⟨before, after, padded, blank⟩ := exists_padded text.toList
  obtain ⟨sign, marked, -⟩ := exists_sign (trimmed text.toList)
  obtain ⟨exponent, unsigned⟩ := exists_exponentText splits
  obtain ⟨fraction, -, isNumeral, joined⟩ := exists_mantissa parts
  dsimp only at joined
  refine ⟨⟨before, sign, integer, fraction, exponent, after, blank, isNumeral⟩, ?_⟩
  rw [DecimalSpelling.text, DecimalSpelling.mantissa, DecimalSpelling.exponentText, padded, marked, unsigned, joined]

/-! ## Zeros in front and behind -/

theorem digitsValue_zeros_append (base zeros : Nat) (digits : List Nat) :
    digitsValue base (List.replicate zeros 0 ++ digits) = digitsValue base digits := by
  induction zeros with
  | zero => rfl
  | succ zeros ih => rw [List.replicate_succ, List.cons_append, digitsValue_cons, Nat.zero_mul, Nat.zero_add, ih]

theorem digitsValue_scalarDigits (digits : List Char) :
    digitsValue 10 (digits.map scalarDigit) = numeralValue digits := by
  induction digits with
  | nil => rfl
  | cons c rest ih =>
    have value : numeralValue (c :: rest) = scalarDigit c * 10 ^ rest.length + numeralValue rest := by
      rw [numeralValue, Nat.ofDigitChars_cons, Nat.ofDigitChars_eq_ofDigitChars_zero, Nat.mul_zero, Nat.zero_add,
        Nat.mul_comm]
      rfl
    rw [List.map_cons, digitsValue_cons, ih, List.length_map, value]

theorem takeWhile_zeros (digits : List Nat) :
    digits.takeWhile (· = 0) = List.replicate (digits.takeWhile (· = 0)).length 0 := by
  apply List.eq_replicate_of_mem
  intro digit member
  simpa using List.mem_takeWhile_imp member

theorem rtakeWhile_zeros (digits : List Nat) :
    digits.rtakeWhile (· = 0) = List.replicate (digits.rtakeWhile (· = 0)).length 0 := by
  apply List.eq_replicate_of_mem
  intro digit member
  simpa using List.mem_rtakeWhile_imp member

theorem dropWhile_zeros_eq_nil {digits : List Nat} :
    digits.dropWhile (· = 0) = [] ↔ digitsValue 10 digits = 0 := by
  have front := List.takeWhile_append_dropWhile (p := fun digit : Nat => decide (digit = 0)) (l := digits)
  rw [takeWhile_zeros] at front
  have value : digitsValue 10 digits = digitsValue 10 (digits.dropWhile (· = 0)) := by
    conv_lhs => rw [← front, digitsValue_zeros_append]
  rw [value]
  cases rest : digits.dropWhile (· = 0) with
  | nil => simp [digitsValue]
  | cons digit rest' =>
    have leading := List.head?_dropWhile_not (fun digit : Nat => decide (digit = 0)) digits
    rw [rest] at leading
    have positive : 10 ^ rest'.length ≤ digitsValue 10 (digit :: rest') :=
      pow_le_digitsValue rest' (by simpa using leading)
    have power : 0 < 10 ^ rest'.length := Nat.pow_pos (by decide)
    constructor
    · intro nothing
      cases nothing
    · intro nothing
      omega

/-- Zeros in front are not zeros behind, unless there are no other digits. -/
theorem rtakeWhile_dropWhile {digits : List Nat} (some : digits.dropWhile (· = 0) ≠ []) :
    (digits.dropWhile (· = 0)).rtakeWhile (· = 0) = digits.rtakeWhile (· = 0) := by
  have other : ¬(((digits.dropWhile (· = 0)).reverse.takeWhile (· = 0)).length =
      (digits.dropWhile (· = 0)).reverse.length) := by
    intro all
    have zeros := List.takeWhile_eq_self_iff.mp ((List.takeWhile_prefix _).eq_of_length all)
    apply some
    rw [← List.dropWhile_idempotent (p := fun digit : Nat => decide (digit = 0)), List.dropWhile_eq_nil_iff]
    intro digit member
    exact zeros digit (List.mem_reverse.mpr member)
  conv_rhs => rw [← List.takeWhile_append_dropWhile (p := fun digit : Nat => decide (digit = 0)) (l := digits)]
  rw [List.rtakeWhile, List.rtakeWhile, List.reverse_append, List.takeWhile_append, if_neg other]

/-- Without the zeros on either side, the number is that of all digits. -/
theorem scaledValue_stripped (digits : List Nat) (power : Int) :
    scaledValue 10 ((digits.dropWhile (· = 0)).rdropWhile (· = 0))
        (power + ((digits.dropWhile (· = 0)).rtakeWhile (· = 0)).length) = scaledValue 10 digits power := by
  have back := List.rdropWhile_append_rtakeWhile (p := fun digit : Nat => decide (digit = 0))
    (l := digits.dropWhile (· = 0))
  rw [rtakeWhile_zeros] at back
  have front := List.takeWhile_append_dropWhile (p := fun digit : Nat => decide (digit = 0)) (l := digits)
  rw [takeWhile_zeros] at front
  have filled := scaledValue_append_zeros (by decide : 0 < 10) ((digits.dropWhile (· = 0)).rtakeWhile (· = 0)).length
    ((digits.dropWhile (· = 0)).rdropWhile (· = 0))
    (power + ((digits.dropWhile (· = 0)).rtakeWhile (· = 0)).length)
  rw [← filled, back, add_sub_cancel_right]
  conv_rhs => rw [← front, scaledValue, digitsValue_zeros_append]
  rfl

/-! ## Decimals -/

namespace DecimalSpelling

variable (spelling : DecimalSpelling)

theorem mantissa_ne_nil : spelling.mantissa ≠ [] := by
  have some := spelling.isNumeral.1
  rw [mantissa]
  cases fraction : spelling.fraction with
  | none =>
    rw [fraction, Option.getD_none, List.append_nil] at some
    exact some
  | some front => exact List.append_ne_nil_of_right_ne_nil _ (List.cons_ne_nil _ _)

theorem trimmed_text :
    trimmed spelling.text = spelling.sign.text ++ (spelling.mantissa ++ spelling.exponentText) := by
  apply trimmed_padded spelling.blank
  · exact List.append_ne_nil_of_right_ne_nil _ (List.append_ne_nil_of_left_ne_nil spelling.mantissa_ne_nil _)
  · intro c member
    rcases List.mem_append.mp member with sign | rest
    · exact isWhiteSpace_of_sign sign
    rcases List.mem_append.mp rest with front | back
    · rcases spelling.mem_mantissa front with digit | rfl
      · exact isWhiteSpace_of_isDigit digit
      · rfl
    · rw [exponentText] at back
      cases shape : spelling.exponent with
      | none =>
        rw [shape] at back
        cases back
      | some exponent =>
        rw [shape] at back
        rcases List.mem_cons.mp back with rfl | rest
        · exact isWhiteSpace_of_mark exponent.isMark
        rcases List.mem_append.mp rest with sign | digit
        · exact isWhiteSpace_of_sign sign
        · exact isWhiteSpace_of_isDigit (exponent.isNumeral.2 c digit)

theorem splitSign_trimmed :
    splitSign (trimmed spelling.text) = (spelling.sign.isMinus, spelling.mantissa ++ spelling.exponentText) := by
  rw [spelling.trimmed_text, splitSign_text]
  intro c head
  rw [List.head?_append_of_ne_nil _ spelling.mantissa_ne_nil] at head
  rcases spelling.mem_mantissa (List.mem_of_mem_head? head) with digit | rfl
  · have range := toNat_of_isDigit digit
    constructor
    · rintro rfl
      exact absurd range (by decide)
    · rintro rfl
      exact absurd range (by decide)
  · exact ⟨by decide, by decide⟩

/-- Parsing checks the exponent, then the power of the last digit, then that of the last digit that is no zero. -/
theorem parse_text :
    ExactDecimal.parse (String.ofList spelling.text) = (do
      let _ ← checkedI64 spelling.exponentValue
      let power ← checkedI64 spelling.power
      let digits := (spelling.digits.map scalarDigit).dropWhile (· = 0)
      if digits = [] then some ⟨false, [0], 0⟩
      else
        let power ← checkedI64 (power + (digits.rtakeWhile (· = 0)).length)
        some ⟨spelling.sign.isMinus, digits.rdropWhile (· = 0), power⟩) := by
  rw [ExactDecimal.parse, String.toList_ofList, spelling.splitSign_trimmed]
  cases fits : checkedI64 spelling.exponentValue with
  | none => simp only [splitDecimalExponent_text, fits, Option.map_none, bind, Option.bind_none]
  | some exponent =>
    obtain ⟨-, rfl⟩ := checkedI64_eq_some.mp fits
    simp only [splitDecimalExponent_text, splitMantissa_text, fits, Option.map_some, bind, Option.bind_some]
    rfl

theorem parse_isSome : (ExactDecimal.parse (String.ofList spelling.text)).isSome = true ↔ spelling.Counted := by
  have zero : (spelling.digits.map scalarDigit).dropWhile (· = 0) = [] ↔ _ := dropWhile_zeros_eq_nil
  rw [digitsValue_scalarDigits] at zero
  simp only [spelling.parse_text, Counted, trailingZeros, Option.isSome_iff_exists, bind, Option.bind_eq_some_iff,
    checkedI64_eq_some]
  constructor
  · rintro ⟨number, _, ⟨exponentFits, -⟩, power, ⟨powerFits, rfl⟩, built⟩
    refine ⟨exponentFits, powerFits, ?_⟩
    intro nonzero
    have some := mt zero.mp nonzero
    rw [if_neg some, rtakeWhile_dropWhile some] at built
    obtain ⟨_, checked, -⟩ := Option.bind_eq_some_iff.mp built
    exact (checkedI64_eq_some.mp checked).1
  · rintro ⟨exponentFits, powerFits, scaledFits⟩
    by_cases none : (spelling.digits.map scalarDigit).dropWhile (· = 0) = []
    · exact ⟨_, _, ⟨exponentFits, rfl⟩, _, ⟨powerFits, rfl⟩, if_pos none⟩
    · have scaled := checkedI64_eq_some.mpr ⟨scaledFits (mt zero.mpr none), rfl⟩
      refine ⟨⟨spelling.sign.isMinus, ((spelling.digits.map scalarDigit).dropWhile (· = 0)).rdropWhile (· = 0),
        spelling.power + spelling.trailingZeros⟩, _, ⟨exponentFits, rfl⟩, _, ⟨powerFits, rfl⟩, ?_⟩
      rw [if_neg none, rtakeWhile_dropWhile none, scaled]
      rfl

theorem value_of_parse {number : ExactDecimal}
    (parsed : ExactDecimal.parse (String.ofList spelling.text) = some number) : number.value = spelling.value := by
  simp only [spelling.parse_text, bind, Option.bind_eq_some_iff, checkedI64_eq_some] at parsed
  obtain ⟨_, -, _, ⟨-, rfl⟩, built⟩ := parsed
  have whole : scaledValue 10 (spelling.digits.map scalarDigit) spelling.power =
      (numeralValue spelling.digits : ℚ) * 10 ^ spelling.power := by
    rw [scaledValue, digitsValue_scalarDigits]
    rfl
  split at built
  · rename_i zeros
    obtain rfl := Option.some.inj built
    have zero := dropWhile_zeros_eq_nil.mp zeros
    rw [digitsValue_scalarDigits] at zero
    cases sign : spelling.sign <;>
      simp [ExactDecimal.value, value, SignMark.signed, SignMark.isMinus, sign, zero, scaledValue, digitsValue]
  · obtain ⟨_, checked, same⟩ := Option.bind_eq_some_iff.mp built
    obtain ⟨-, rfl⟩ := checkedI64_eq_some.mp checked
    obtain rfl := Option.some.inj same
    rw [ExactDecimal.value]
    dsimp only
    rw [scaledValue_stripped, whole]
    rfl

end DecimalSpelling

/-! ## The order of what is spelled -/

def CatalogScalarType.isNumber : CatalogScalarType → Bool
  | .signedInteger _ | .unsignedInteger _ | .decimal => true
  | .float32 | .float64 | .text | .timestamp | .timestampTz | .unsupported => false

/-- The text spells the number. -/
def Denotes (scalarType : CatalogScalarType) (text : String) (value : ℚ) : Prop :=
  match scalarType with
  | .signedInteger _ | .unsignedInteger _ =>
    ∃ spelling : IntegerSpelling, spelling.text = text.toList ∧ (spelling.value : ℚ) = value
  | .decimal => ∃ spelling : DecimalSpelling, spelling.text = text.toList ∧ spelling.value = value
  | .float32 | .float64 | .text | .timestamp | .timestampTz | .unsupported => False

/-- A text that has a value spells that number and no other. -/
theorem scalarValue_number {scalarType : CatalogScalarType} {scalar : ScalarValue}
    (number : scalarType.isNumber = true) (read : scalarValue scalarType text = some scalar) :
    ∃ value : ℚ, scalar = toLex (Sum.inl value) ∧ Denotes scalarType text value ∧
      ∀ other, Denotes scalarType text other → other = value := by
  have integers : ∀ {bits : Nat} {signed : Bool},
      ((parseInteger text bits signed).map fun number => integerScalar number.value) = some scalar →
      ∃ value : ℚ, scalar = toLex (Sum.inl value) ∧
        (∃ spelling : IntegerSpelling, spelling.text = text.toList ∧ (spelling.value : ℚ) = value) ∧
        ∀ other : ℚ,
          (∃ spelling : IntegerSpelling, spelling.text = text.toList ∧ (spelling.value : ℚ) = other) →
            other = value := by
    intro bits signed mapped
    obtain ⟨number, parsed, rfl⟩ := Option.map_eq_some_iff.mp mapped
    obtain ⟨⟨spelling, spelled⟩, same⟩ := parseInteger_spelled parsed
    refine ⟨number.value, rfl, ⟨spelling, spelled, by rw [same spelling spelled]⟩, ?_⟩
    rintro _ ⟨another, spelled, rfl⟩
    rw [same another spelled]
  cases scalarType with
  | signedInteger bits
  | unsignedInteger bits => exact integers read
  | decimal =>
    obtain ⟨number, parsed, rfl⟩ := Option.map_eq_some_iff.mp read
    obtain ⟨spelling, spelled⟩ := exists_decimalSpelling parsed
    have same : ∀ another : DecimalSpelling, another.text = text.toList → number.value = another.value := by
      intro another spelled
      apply another.value_of_parse
      rw [spelled, String.ofList_toList]
      exact parsed
    refine ⟨number.value, rfl, ⟨spelling, spelled, (same spelling spelled).symm⟩, ?_⟩
    rintro _ ⟨another, spelled, rfl⟩
    exact (same another spelled).symm
  | float32 | float64 | text | timestamp | timestampTz | unsupported => cases number

theorem CatalogScalarType.isExact_of_isNumber {scalarType : CatalogScalarType} (number : scalarType.isNumber = true) :
    scalarType.isExact = true := by
  cases scalarType <;> first | rfl | cases number

/-- The first text compares, and is not above the second. -/
def TextLe (other : OtherScalarOrder) (scalarType : CatalogScalarType) (left right : String) : Prop :=
  ∃ ordering, compareTypedScalars other scalarType left right = some ordering ∧ ordering ≠ .gt

theorem textLe_iff {scalarType : CatalogScalarType} (exact : scalarType.isExact = true) (other : OtherScalarOrder)
    (left right : String) :
    TextLe other scalarType left right ↔
      ∃ first second, scalarValue scalarType left = some first ∧ scalarValue scalarType right = some second ∧
        first ≤ second := by
  simp only [TextLe, compareTypedScalars_eq exact, Option.map₂_eq_some_iff]
  constructor
  · rintro ⟨_, ⟨first, second, readLeft, readRight, rfl⟩, notAbove⟩
    exact ⟨first, second, readLeft, readRight, compare_le_iff_le.mp (by simpa using notAbove)⟩
  · rintro ⟨first, second, readLeft, readRight, le⟩
    refine ⟨_, ⟨first, second, readLeft, readRight, rfl⟩, ?_⟩
    rw [ne_eq, compare_gt_iff_gt]
    exact not_lt.mpr le

theorem TextLe.trans {scalarType : CatalogScalarType} (exact : scalarType.isExact = true) {other : OtherScalarOrder}
    {left middle right : String} (lower : TextLe other scalarType left middle)
    (upper : TextLe other scalarType middle right) : TextLe other scalarType left right := by
  rw [textLe_iff exact] at lower upper ⊢
  obtain ⟨first, second, readLeft, readMiddle, firstLe⟩ := lower
  obtain ⟨second', third, readMiddle', readRight, secondLe⟩ := upper
  obtain rfl := Option.some.inj (readMiddle.symm.trans readMiddle')
  exact ⟨first, third, readLeft, readRight, firstLe.trans secondLe⟩

/-- Where two texts compare, they compare as the numbers they spell; so on the texts that
compare with themselves the order is total and transitive. A decimal is parsed when the
powers it is counted in fit, and only then. -/
theorem compareTypedScalars_exact (other : OtherScalarOrder) {scalarType : CatalogScalarType}
    (number : scalarType.isNumber = true) :
    (∀ {left right ordering}, compareTypedScalars other scalarType left right = some ordering →
      ∃ first second : ℚ, Denotes scalarType left first ∧ Denotes scalarType right second ∧
        ordering = compare first second ∧
        (∀ another, Denotes scalarType left another → another = first) ∧
        ∀ another, Denotes scalarType right another → another = second) ∧
    (∀ {left right}, (compareTypedScalars other scalarType left left).isSome = true →
      (compareTypedScalars other scalarType right right).isSome = true →
      TextLe other scalarType left right ∨ TextLe other scalarType right left) ∧
    (∀ {left middle right}, TextLe other scalarType left middle → TextLe other scalarType middle right →
      TextLe other scalarType left right) ∧
    ∀ spelling : DecimalSpelling,
      (ExactDecimal.parse (String.ofList spelling.text)).isSome = true ↔ spelling.Counted := by
  have exact := CatalogScalarType.isExact_of_isNumber number
  refine ⟨?_, ?_, ?_, DecimalSpelling.parse_isSome⟩
  · intro left right ordering compared
    rw [compareTypedScalars_eq exact, Option.map₂_eq_some_iff] at compared
    obtain ⟨_, _, readLeft, readRight, rfl⟩ := compared
    obtain ⟨first, rfl, spellsLeft, onlyLeft⟩ := scalarValue_number number readLeft
    obtain ⟨second, rfl, spellsRight, onlyRight⟩ := scalarValue_number number readRight
    refine ⟨first, second, spellsLeft, spellsRight, ?_, onlyLeft, onlyRight⟩
    exact compare_eq_of_lt_iff Sum.Lex.inl_lt_inl_iff (by rw [toLex_inj, Sum.inl.injEq])
  · intro left right parsesLeft parsesRight
    simp only [compareTypedScalars_eq exact, Option.isSome_iff_exists, Option.map₂_eq_some_iff]
      at parsesLeft parsesRight
    obtain ⟨_, first, _, readLeft, -⟩ := parsesLeft
    obtain ⟨_, second, _, readRight, -⟩ := parsesRight
    rw [textLe_iff exact, textLe_iff exact]
    rcases le_total first second with below | above
    · exact .inl ⟨first, second, readLeft, readRight, below⟩
    · exact .inr ⟨second, first, readRight, readLeft, above⟩
  · intro left middle right lower upper
    exact lower.trans exact upper

/-- Ten with an exponent that leaves no room for its zero. -/
def wideExponent : DecimalSpelling :=
  { before := []
    sign := .absent
    integer := "10".toList
    fraction := none
    exponent := some
      { mark := 'e', sign := .absent, digits := "9223372036854775807".toList,
        isMark := rfl, isNumeral := ⟨List.cons_ne_nil _ _, List.all_eq_true.mp rfl⟩ }
    after := []
    blank := fun _ member => nomatch member
    isNumeral := ⟨List.cons_ne_nil _ _, List.all_eq_true.mp rfl⟩ }

/-- One, with a fraction that leaves no room for its exponent. -/
def deepExponent : DecimalSpelling :=
  { before := []
    sign := .absent
    integer := "1".toList
    fraction := some "0".toList
    exponent := some
      { mark := 'e', sign := .minus, digits := "9223372036854775808".toList,
        isMark := rfl, isNumeral := ⟨List.cons_ne_nil _ _, List.all_eq_true.mp rfl⟩ }
    after := []
    blank := fun _ member => nomatch member
    isNumeral := ⟨List.cons_ne_nil _ _, List.all_eq_true.mp rfl⟩ }

/-- It is not enough that the exponent fits, counted from the last digit or from the last that is no zero. -/
theorem decimals_unparsed :
    wideExponent.text = "10e9223372036854775807".toList ∧
    deepExponent.text = "1.0e-9223372036854775808".toList ∧
    ExactDecimal.parse "10e9223372036854775807" = none ∧
    ExactDecimal.parse "1.0e-9223372036854775808" = none ∧
    ¬(∀ spelling : DecimalSpelling, FitsI64 spelling.exponentValue → FitsI64 spelling.power →
      (ExactDecimal.parse (String.ofList spelling.text)).isSome = true) ∧
    ¬∀ spelling : DecimalSpelling, FitsI64 spelling.exponentValue →
      FitsI64 (spelling.power + spelling.trailingZeros) →
        (ExactDecimal.parse (String.ofList spelling.text)).isSome = true := by
  have wide : ExactDecimal.parse (String.ofList wideExponent.text) = none := by rfl
  have deep : ExactDecimal.parse (String.ofList deepExponent.text) = none := by rfl
  refine ⟨rfl, rfl, wide, deep, ?_, ?_⟩
  · intro parses
    have parsed := parses wideExponent (by decide +kernel) (by decide +kernel)
    rw [wide] at parsed
    cases parsed
  · intro parses
    have parsed := parses deepExponent (by decide +kernel) (by decide +kernel)
    rw [deep] at parsed
    cases parsed

/-- A sign, a point, zeros and an exponent: minus fifteen twice. -/
theorem compareTypedScalars_exact_fifteen :
    compareTypedScalars (fun _ _ _ => none) .decimal "-1.50e1" " -0015.0" = some .eq ∧
    ∃ first second : ℚ, Denotes .decimal "-1.50e1" first ∧ Denotes .decimal " -0015.0" second ∧
      Ordering.eq = compare first second ∧
      (∀ another, Denotes .decimal "-1.50e1" another → another = first) ∧
      ∀ another, Denotes .decimal " -0015.0" another → another = second :=
  have same : compareTypedScalars (fun _ _ _ => none) .decimal "-1.50e1" " -0015.0" = some .eq := by rfl
  ⟨same, (compareTypedScalars_exact (fun _ _ _ => none) rfl).1 same⟩

end DucklakeCatalog
