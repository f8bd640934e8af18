import DucklakeCatalog.ByteCodec.SelfDelimiting
import Mathlib.Tactic.IntervalCases
import Mathlib.Tactic.Ring

/-! Numbers and byte strings written as text, and the readers that take them back. -/
namespace ByteCodec

/-- Visible text of one byte per character: no blanks, no line ends, nothing above 7 bits. -/
def Graphic (bytes : Bytes) : Prop := ∀ byte ∈ bytes, 32 < byte.toNat ∧ byte.toNat < 127

instance (bytes : Bytes) : Decidable (Graphic bytes) :=
  List.decidableBAll (fun byte : UInt8 => 32 < byte.toNat ∧ byte.toNat < 127) bytes

theorem Graphic.append {left right : Bytes} (first : Graphic left) (second : Graphic right) : Graphic (left ++ right) := by
  intro byte member
  rcases List.mem_append.mp member with inLeft | inRight
  · exact first byte inLeft
  · exact second byte inRight

/-! ## Decimal numbers -/

inductive ParseIntError where
  | empty
  | invalidDigit
  | posOverflow
  deriving DecidableEq

def ParseIntError.text : ParseIntError → String
  | .empty => "cannot parse integer from empty string"
  | .invalidDigit => "invalid digit found in string"
  | .posOverflow => "number too large to fit in target type"

def decimalDigit (byte : UInt8) : Option Nat :=
  if 48 ≤ byte.toNat ∧ byte.toNat ≤ 57 then some (byte.toNat - 48) else none

/-- One more digit; what does not fit is noticed at the digit that makes it so. -/
def appendDigit (limit value : Nat) (byte : UInt8) : Except ParseIntError Nat :=
  match decimalDigit byte with
  | none => .error .invalidDigit
  | some digit => if value * 10 + digit ≤ limit then .ok (value * 10 + digit) else .error .posOverflow

/-- `str::parse` for an unsigned type whose largest value is `limit`. -/
def parseUnsigned (limit : Nat) (text : Bytes) : Except ParseIntError Nat :=
  match text with
  | [] => .error .empty
  | first :: rest =>
    if first = 43 then
      if rest = [] then .error .invalidDigit else rest.foldlM (appendDigit limit) 0
    else text.foldlM (appendDigit limit) 0

def decimalBytes (value : Nat) : Bytes := (Nat.toDigits 10 value).map fun digit => UInt8.ofNat digit.toNat

theorem decimalBytes_of_lt {value : Nat} (small : value < 10) : decimalBytes value = [UInt8.ofNat (48 + value)] := by
  rw [decimalBytes, Nat.toDigits_of_lt_base small]
  interval_cases value <;> rfl

theorem decimalBytes_of_le {value : Nat} (large : 10 ≤ value) :
    decimalBytes value = decimalBytes (value / 10) ++ [UInt8.ofNat (48 + value % 10)] := by
  have last := decimalBytes_of_lt (Nat.mod_lt value (by decide : 0 < 10))
  rw [decimalBytes, Nat.toDigits_of_lt_base (Nat.mod_lt value (by decide))] at last
  rw [decimalBytes, Nat.toDigits_of_base_le (by decide) large, List.map_append, decimalBytes, last]

theorem decimalDigit_ofNat {digit : Nat} (small : digit < 10) : decimalDigit (UInt8.ofNat (48 + digit)) = some digit := by
  interval_cases digit <;> rfl

theorem mem_decimalBytes {value : Nat} {byte : UInt8} (member : byte ∈ decimalBytes value) :
    48 ≤ byte.toNat ∧ byte.toNat ≤ 57 := by
  induction value using Nat.strongRecOn with
  | ind value ih =>
    have digit (small : Nat) (below : small < 10) (same : byte = UInt8.ofNat (48 + small)) :
        48 ≤ byte.toNat ∧ byte.toNat ≤ 57 := by
      subst same
      interval_cases small <;> decide
    by_cases small : value < 10
    · rw [decimalBytes_of_lt small] at member
      exact digit value small (by simpa using member)
    · rw [decimalBytes_of_le (by omega)] at member
      rcases List.mem_append.mp member with earlier | last
      · exact ih (value / 10) (by omega) earlier
      · exact digit (value % 10) (by omega) (by simpa using last)

theorem decimalBytes_graphic (value : Nat) : Graphic (decimalBytes value) := by
  intro byte member
  obtain ⟨low, high⟩ := mem_decimalBytes member
  omega

theorem appendDigit_ofNat {limit value digit : Nat} (small : digit < 10) (fits : value * 10 + digit ≤ limit) :
    [UInt8.ofNat (48 + digit)].foldlM (appendDigit limit) value = .ok (value * 10 + digit) := by
  simp only [List.foldlM_cons, List.foldlM_nil, appendDigit, decimalDigit_ofNat small, fits, if_true]
  rfl

theorem foldlM_appendDigit_decimalBytes {limit value : Nat} (fits : value ≤ limit) :
    (decimalBytes value).foldlM (appendDigit limit) 0 = .ok value := by
  induction value using Nat.strongRecOn with
  | ind value ih =>
    by_cases small : value < 10
    · rw [decimalBytes_of_lt small, appendDigit_ofNat small (by omega), Nat.zero_mul, Nat.zero_add]
    · rw [decimalBytes_of_le (by omega), List.foldlM_append, ih (value / 10) (by omega) (by omega)]
      have value_eq : value / 10 * 10 + value % 10 = value := by omega
      exact (appendDigit_ofNat (Nat.mod_lt value (by decide)) (by omega)).trans (congrArg _ value_eq)

theorem parseUnsigned_decimalBytes {limit value : Nat} (fits : value ≤ limit) :
    parseUnsigned limit (decimalBytes value) = .ok value := by
  have digits := foldlM_appendDigit_decimalBytes fits
  have bounds := fun byte => @mem_decimalBytes value byte
  cases text : decimalBytes value with
  | nil =>
    by_cases small : value < 10
    · rw [decimalBytes_of_lt small] at text
      cases text
    · rw [decimalBytes_of_le (by omega)] at text
      simp at text
  | cons first rest =>
    have notPlus : first ≠ 43 := by
      intro same
      have low := (bounds first (by simp [text])).1
      rw [same] at low
      exact absurd low (by decide)
    rw [text] at digits
    simpa only [parseUnsigned, notPlus, if_false] using digits

/-! ## Hexadecimal bytes -/

def hexDigit (value : Nat) : UInt8 := UInt8.ofNat (if value < 10 then 48 + value else 87 + value)

/-- Either case is read; `None` for what is not a digit. -/
def hexValue (byte : UInt8) : Option Nat :=
  if 48 ≤ byte.toNat ∧ byte.toNat ≤ 57 then some (byte.toNat - 48)
  else if 97 ≤ byte.toNat ∧ byte.toNat ≤ 102 then some (byte.toNat - 87)
  else if 65 ≤ byte.toNat ∧ byte.toNat ≤ 70 then some (byte.toNat - 55)
  else none

def IsHex (text : Bytes) : Prop := ∀ byte ∈ text, (hexValue byte).isSome

instance (text : Bytes) : Decidable (IsHex text) :=
  List.decidableBAll (fun byte => (hexValue byte).isSome) text

/-- Two lower-case digits a byte, high half first. -/
def hexText (bytes : Bytes) : Bytes :=
  bytes.flatMap fun byte => [hexDigit (byte.toNat / 16), hexDigit (byte.toNat % 16)]

def hexNumber (text : Bytes) : Nat := text.foldl (fun value byte => value * 16 + (hexValue byte).getD 0) 0

theorem hexValue_hexDigit {value : Nat} (small : value < 16) : hexValue (hexDigit value) = some value := by
  interval_cases value <;> rfl

theorem IsHex.graphic {text : Bytes} (hex : IsHex text) : Graphic text := by
  intro byte member
  have digit := hex byte member
  unfold hexValue at digit
  split_ifs at digit
  · omega
  · omega
  · omega
  · cases digit

theorem hexText_isHex (bytes : Bytes) : IsHex (hexText bytes) := by
  intro digit member
  obtain ⟨byte, _, half⟩ := List.mem_flatMap.mp member
  have bound : byte.toNat < 256 := byte.toNat_lt
  rcases List.mem_pair.mp half with high | low
  · rw [high, hexValue_hexDigit (by omega)]
    rfl
  · rw [low, hexValue_hexDigit (by omega)]
    rfl

theorem hexText_length (bytes : Bytes) : (hexText bytes).length = 2 * bytes.length := by
  induction bytes with
  | nil => rfl
  | cons byte rest ih =>
    simp only [hexText, List.flatMap_cons, List.length_append, List.length_cons, List.length_nil] at ih ⊢
    omega

def appendByte (value : Nat) (byte : UInt8) : Nat := value * 256 + byte.toNat

theorem foldl_hexText (bytes : Bytes) (start : Nat) :
    (hexText bytes).foldl (fun value byte => value * 16 + (hexValue byte).getD 0) start =
      bytes.foldl appendByte start := by
  induction bytes generalizing start with
  | nil => rfl
  | cons byte rest ih =>
    have bound : byte.toNat < 256 := byte.toNat_lt
    have halves : (start * 16 + byte.toNat / 16) * 16 + byte.toNat % 16 = appendByte start byte := by
      simp only [appendByte]
      omega
    simp only [hexText, List.flatMap_cons, List.foldl_append, List.foldl_cons, List.foldl_nil, Option.getD_some,
      hexValue_hexDigit (Nat.div_lt_of_lt_mul (by omega : byte.toNat < 16 * 16)),
      hexValue_hexDigit (Nat.mod_lt byte.toNat (by decide : 0 < 16)), halves] at ih ⊢
    exact ih _

theorem foldl_appendByte (bytes : Bytes) (start : Nat) :
    ∃ low < 256 ^ bytes.length, bytes.foldl appendByte start = start * 256 ^ bytes.length + low := by
  induction bytes generalizing start with
  | nil => exact ⟨0, by simp, by simp⟩
  | cons byte rest ih =>
    obtain ⟨low, small, same⟩ := ih (appendByte start byte)
    have bound : byte.toNat < 256 := byte.toNat_lt
    refine ⟨byte.toNat * 256 ^ rest.length + low, ?_, ?_⟩
    · calc byte.toNat * 256 ^ rest.length + low
          < byte.toNat * 256 ^ rest.length + 256 ^ rest.length := Nat.add_lt_add_left small _
        _ = (byte.toNat + 1) * 256 ^ rest.length := by rw [Nat.succ_mul]
        _ ≤ 256 * 256 ^ rest.length := Nat.mul_le_mul_right _ (by omega)
        _ = 256 ^ (byte :: rest).length := by rw [List.length_cons, Nat.pow_succ, Nat.mul_comm]
    · rw [List.foldl_cons, same, appendByte, List.length_cons, Nat.pow_succ]
      ring

theorem beBytes_foldl_appendByte (bytes : Bytes) (start : Nat) :
    beBytes bytes.length (bytes.foldl appendByte start) = bytes := by
  induction bytes generalizing start with
  | nil => rfl
  | cons byte rest ih =>
    obtain ⟨low, small, same⟩ := foldl_appendByte rest (appendByte start byte)
    have leading : (rest.foldl appendByte (appendByte start byte)) / 256 ^ rest.length = appendByte start byte := by
      rw [same, Nat.mul_comm, Nat.mul_add_div (Nat.pow_pos (by decide)), Nat.div_eq_of_lt small, Nat.add_zero]
    have digit : UInt8.ofNat (appendByte start byte) = byte := by
      apply UInt8.toNat_inj.mp
      have bound : byte.toNat < 256 := byte.toNat_lt
      simp only [appendByte, UInt8.toNat_ofNat']
      omega
    rw [List.length_cons, List.foldl_cons, beBytes, leading, digit, ih]

/-- Reading the digits and writing the number out again is the identity on byte strings. -/
theorem beBytes_hexNumber_hexText (bytes : Bytes) : beBytes bytes.length (hexNumber (hexText bytes)) = bytes := by
  rw [hexNumber, foldl_hexText, beBytes_foldl_appendByte]

end ByteCodec
