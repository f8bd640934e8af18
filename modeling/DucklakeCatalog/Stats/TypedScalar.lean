import DucklakeCatalog.Kv.Store
import Mathlib.Algebra.Group.Int.Defs
import Mathlib.Data.List.DropRight

/-! Comparison of catalog values by the type of their column. -/
namespace DucklakeCatalog

inductive CatalogScalarType where
  | signedInteger (bits : Nat)
  | unsignedInteger (bits : Nat)
  | decimal
  | float32
  | float64
  | text
  | timestamp
  | timestampTz
  | unsupported
  deriving DecidableEq, Repr

/-! ## Type declarations -/

/-- The Unicode property White_Space. -/
def isWhiteSpace (c : Char) : Bool :=
  (9 ≤ c.toNat && c.toNat ≤ 13) || (8192 ≤ c.toNat && c.toNat ≤ 8202) ||
    decide (c.toNat ∈ [32, 133, 160, 5760, 8232, 8233, 8239, 8287, 12288])

def trimmed (value : List Char) : List Char := (value.dropWhile isWhiteSpace).rdropWhile isWhiteSpace

def scalarTypeTokenBytes : Nat := 32

def scalarTypeOfToken (base : String) : CatalogScalarType :=
  if base ∈ ["TINYINT", "INT1"] then .signedInteger 8
  else if base ∈ ["SMALLINT", "INT2", "INT16", "SHORT"] then .signedInteger 16
  else if base ∈ ["INTEGER", "INT", "INT4", "INT32", "SIGNED"] then .signedInteger 32
  else if base ∈ ["BIGINT", "INT8", "INT64", "LONG"] then .signedInteger 64
  else if base ∈ ["HUGEINT", "INT128"] then .signedInteger 128
  else if base ∈ ["UTINYINT", "UINT8"] then .unsignedInteger 8
  else if base ∈ ["USMALLINT", "UINT16"] then .unsignedInteger 16
  else if base ∈ ["UINTEGER", "UINT32"] then .unsignedInteger 32
  else if base ∈ ["UBIGINT", "UINT64"] then .unsignedInteger 64
  else if base ∈ ["UHUGEINT", "UINT128"] then .unsignedInteger 128
  else if base ∈ ["TIMESTAMP", "TIMESTAMP_S", "TIMESTAMP_MS", "TIMESTAMP_NS"] then .timestamp
  else if base ∈ ["TIMESTAMPTZ", "TIMESTAMP_TZ", "TIMESTAMP_TZ_NS"] then .timestampTz
  else if base ∈ ["DECIMAL", "NUMERIC"] then .decimal
  else if base ∈ ["FLOAT", "REAL", "FLOAT4"] then .float32
  else if base ∈ ["DOUBLE", "FLOAT8"] then .float64
  else if base ∈ ["VARCHAR", "CHAR", "BPCHAR", "TEXT", "STRING"] then .text
  else .unsupported

def normalizeCatalogScalarType (declaration : String) : CatalogScalarType :=
  let declaration := trimmed declaration.toList
  if '[' ∈ declaration then .unsupported
  else if declaration.map Char.toUpper = "TIMESTAMP WITH TIME ZONE".toList then .timestampTz
  else
    let base := String.ofList (declaration.takeWhile fun c => decide (c ∉ ['(', ' ', ')']))
    if scalarTypeTokenBytes < base.utf8ByteSize then .unsupported
    else scalarTypeOfToken (String.ofList (base.toList.map Char.toUpper))

/-! ## Integers -/

def u128Max : Nat := 2 ^ 128 - 1

def checkedShiftLeft128 (shift : Nat) : Option Nat := if shift < 128 then some (2 ^ shift) else none

def scalarDigit (c : Char) : Nat := c.toNat - '0'.toNat

/-- The number an unsigned run of digits spells. -/
def parseUnsignedDigits (digits : List Char) : Option Nat :=
  if digits ≠ [] ∧ digits.all Char.isDigit then
    some (digits.foldl (fun value digit => 10 * value + scalarDigit digit) 0)
  else none

/-- An optional sign, and what follows it. -/
def splitSign (value : List Char) : Bool × List Char :=
  match value with
  | '-' :: digits => (true, digits)
  | '+' :: digits => (false, digits)
  | digits => (false, digits)

structure ExactInteger where
  negative : Bool
  magnitude : Nat
  deriving DecidableEq, Repr

def integerLimit (bits : Nat) (signed negative : Bool) : Option Nat :=
  if signed then
    (checkedShiftLeft128 (bits - 1)).map fun limit => if negative then limit else limit - 1
  else if negative then none
  else if bits = 128 then some u128Max
  else (checkedShiftLeft128 bits).map (· - 1)

def parseInteger (value : String) (bits : Nat) (signed : Bool) : Option ExactInteger := do
  let (negative, digits) := splitSign (trimmed value.toList)
  let magnitude ← (parseUnsignedDigits digits).filter (· ≤ u128Max)
  let limit ← integerLimit bits signed negative
  if limit < magnitude then none
  else some { negative := negative && magnitude ≠ 0, magnitude }

def compareInteger (left right : ExactInteger) : Ordering :=
  match left.negative, right.negative with
  | true, false => .lt
  | false, true => .gt
  | true, true => compare right.magnitude left.magnitude
  | false, false => compare left.magnitude right.magnitude

/-! ## Decimals -/

/-- Digits from the first to the last one that is not zero, without the point;
zero has the single digit 0. -/
structure ExactDecimal where
  negative : Bool
  digits : List Nat
  power : Int
  deriving DecidableEq, Repr

def checkedI64 (value : Int) : Option Int := if -2 ^ 63 ≤ value ∧ value < 2 ^ 63 then some value else none

def parseI64 (value : List Char) : Option Int := do
  let (negative, digits) := splitSign value
  let magnitude ← parseUnsignedDigits digits
  checkedI64 (if negative then -magnitude else magnitude)

def isExponentMark (c : Char) : Bool := c = 'e' || c = 'E'

/-- The mantissa, and the exponent after the only mark. -/
def splitDecimalExponent (value : List Char) : Option (List Char × Int) :=
  match value.dropWhile fun c => !isExponentMark c with
  | [] => some (value, 0)
  | _ :: exponent =>
    if exponent.any isExponentMark then none
    else (parseI64 exponent).map fun exponent => (value.takeWhile fun c => !isExponentMark c, exponent)

/-- The digits before and after the only point. -/
def splitMantissa (mantissa : List Char) : Option (List Char × List Char) :=
  let integer := mantissa.takeWhile (· ≠ '.')
  let fractional := (mantissa.dropWhile (· ≠ '.')).tail
  if '.' ∈ fractional ∨ (integer = [] ∧ fractional = []) ∨ !(integer ++ fractional).all Char.isDigit then none
  else some (integer, fractional)

def ExactDecimal.parse (value : String) : Option ExactDecimal := do
  let (negative, unsigned) := splitSign (trimmed value.toList)
  let (mantissa, exponent) ← splitDecimalExponent unsigned
  let (integer, fractional) ← splitMantissa mantissa
  let power ← checkedI64 (exponent - fractional.length)
  let digits := ((integer ++ fractional).map scalarDigit).dropWhile (· = 0)
  if digits = [] then some ⟨false, [0], 0⟩
  else
    let trailing := (digits.rtakeWhile (· = 0)).length
    let power ← checkedI64 (power + trailing)
    some ⟨negative, digits.rdropWhile (· = 0), power⟩

/-- The digits with zeros behind them. -/
def paddedDigits (width : Nat) (digits : List Nat) : List Nat :=
  digits ++ List.replicate (width - digits.length) 0

def ExactDecimal.magnitudeCompare (left right : ExactDecimal) : Ordering :=
  if left.digits = [0] ∧ right.digits = [0] then .eq
  else if left.digits = [0] then .lt
  else if right.digits = [0] then .gt
  else
    let leftPlaces : Int := left.digits.length + left.power
    let rightPlaces : Int := right.digits.length + right.power
    let width := max left.digits.length right.digits.length
    (compare leftPlaces rightPlaces).then
      (compare (paddedDigits width left.digits) (paddedDigits width right.digits))

def ExactDecimal.compare (left right : ExactDecimal) : Ordering :=
  match left.negative, right.negative with
  | true, false => .lt
  | false, true => .gt
  | true, true => (left.magnitudeCompare right).swap
  | false, false => left.magnitudeCompare right

/-! ## Typed comparison -/

/-- How texts of floating point numbers and timestamps compare. -/
abbrev OtherScalarOrder := CatalogScalarType → String → String → Option Ordering

def compareTypedScalars (other : OtherScalarOrder) (scalarType : CatalogScalarType) (left right : String) :
    Option Ordering :=
  match scalarType with
  | .signedInteger bits => do
    return compareInteger (← parseInteger left bits true) (← parseInteger right bits true)
  | .unsignedInteger bits => do
    return compareInteger (← parseInteger left bits false) (← parseInteger right bits false)
  | .decimal => do
    return (← ExactDecimal.parse left).compare (← ExactDecimal.parse right)
  | .text => some (compare left right)
  | .float32 | .float64 | .timestamp | .timestampTz => other scalarType left right
  | .unsupported => none

end DucklakeCatalog
