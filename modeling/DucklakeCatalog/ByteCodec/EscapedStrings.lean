import DucklakeCatalog.ByteCodec.KeyOrder
import DucklakeCatalog.ByteCodec.SelfDelimiting

/-! Byte strings inside a tuple: a zero byte of the string is escaped by 0xff and a zero
byte that 0xff does not follow ends the string. The encoding keeps the order of the
strings, whether the terminator is written or not. -/
namespace ByteCodec

def escapeByte (byte : UInt8) : Bytes := if byte = 0 then [0, 0xff] else [byte]

def escaped (value : Bytes) : Bytes := value.flatMap escapeByte

def packString (value : Bytes) : Bytes := 1 :: escaped value ++ [0]

/-- The string up to its terminator, and what stands behind the terminator. -/
def unpackEscaped : Bytes → Option (Bytes × Bytes)
  | [] => none
  | [byte] => if byte = 0 then some ([], []) else none
  | byte :: next :: rest =>
    if byte = 0 then
      if next = 0xff then (unpackEscaped rest).map fun (value, after) => (0 :: value, after)
      else some ([], next :: rest)
    else (unpackEscaped (next :: rest)).map fun (value, after) => (byte :: value, after)

def unpackString : Bytes → Option (Bytes × Bytes)
  | [] => none
  | code :: rest => if code = 1 then unpackEscaped rest else none

@[simp]
theorem escaped_nil : escaped [] = [] := rfl

@[simp]
theorem escaped_cons (byte : UInt8) (rest : Bytes) : escaped (byte :: rest) = escapeByte byte ++ escaped rest := rfl

/-! ## Reading back -/

theorem unpackEscaped_zero {after : Bytes} (unescaped : after.head? ≠ some 0xff) :
    unpackEscaped (0 :: after) = some ([], after) := by
  cases after with
  | nil => rfl
  | cons next rest =>
    have other : next ≠ 0xff := fun same => unescaped (by rw [same]; rfl)
    simp [unpackEscaped, other]

theorem unpackEscaped_cons {byte : UInt8} (nonzero : byte ≠ 0) (rest : Bytes) :
    unpackEscaped (byte :: rest) = (unpackEscaped rest).map fun (value, after) => (byte :: value, after) := by
  cases rest with
  | nil
  | cons next rest => simp [unpackEscaped, nonzero]

/-- A string that is behind an escaped one is read as its continuation. -/
theorem unpackEscaped_escaped_append (value stream : Bytes) :
    unpackEscaped (escaped value ++ stream) =
      (unpackEscaped stream).map fun (more, after) => (value ++ more, after) := by
  induction value with
  | nil => simp
  | cons byte rest ih =>
    rw [escaped_cons, escapeByte, List.append_assoc]
    by_cases zero : byte = 0
    · rw [if_pos zero, zero]
      change unpackEscaped (0 :: 0xff :: (escaped rest ++ stream)) = _
      simp only [unpackEscaped, if_true, ih, Option.map_map]
      rfl
    · rw [if_neg zero]
      change unpackEscaped (byte :: (escaped rest ++ stream)) = _
      rw [unpackEscaped_cons zero, ih, Option.map_map]
      rfl

theorem unpackString_packString (value : Bytes) {after : Bytes} (unescaped : after.head? ≠ some 0xff) :
    unpackString (packString value ++ after) = some (value, after) := by
  have shape : packString value ++ after = 1 :: (escaped value ++ 0 :: after) := by simp [packString]
  rw [shape, unpackString, if_pos rfl, unpackEscaped_escaped_append, unpackEscaped_zero unescaped]
  simp

/-- What 0xff begins is taken for a part of the string before it. -/
theorem unpackString_packString_escape (value after : Bytes) :
    unpackString (packString value ++ 0xff :: after) =
      (unpackEscaped after).map fun (more, last) => (value ++ 0 :: more, last) := by
  have shape : packString value ++ 0xff :: after = 1 :: (escaped value ++ 0 :: 0xff :: after) := by simp [packString]
  rw [shape, unpackString, if_pos rfl, unpackEscaped_escaped_append]
  simp only [unpackEscaped, if_true, Option.map_map]
  rfl

/-! ## The order -/

theorem escapeByte_append_lt_iff (left right : UInt8) (afterLeft afterRight : Bytes) :
    escapeByte left ++ afterLeft < escapeByte right ++ afterRight ↔
      left < right ∨ left = right ∧ afterLeft < afterRight := by
  rw [escapeByte, escapeByte]
  by_cases leftZero : left = 0
  · by_cases rightZero : right = 0
    · rw [if_pos leftZero, if_pos rightZero, append_lt_append_left_iff, leftZero, rightZero]
      simp
    · have above : (0 : UInt8) < right := UInt8.pos_iff_ne_zero.mpr rightZero
      rw [if_pos leftZero, if_neg rightZero, leftZero]
      simp [List.cons_lt_cons_iff, above]
  · rw [if_neg leftZero]
    by_cases rightZero : right = 0
    · have notBelow : ¬ left < 0 := UInt8.not_lt_zero
      rw [if_pos rightZero, rightZero]
      simp [List.cons_lt_cons_iff, leftZero, notBelow]
    · rw [if_neg rightZero]
      simp [List.cons_lt_cons_iff]

theorem escaped_append_lt_iff {left right : Bytes} (sameLength : left.length = right.length)
    (afterLeft afterRight : Bytes) :
    escaped left ++ afterLeft < escaped right ++ afterRight ↔ left < right ∨ left = right ∧ afterLeft < afterRight := by
  induction left generalizing right with
  | nil =>
    have empty : right = [] := List.length_eq_zero_iff.mp sameLength.symm
    subst empty
    simp
  | cons first left ih =>
    obtain ⟨other, right, rfl⟩ := List.exists_cons_of_length_eq_add_one sameLength.symm
    rw [escaped_cons, escaped_cons, List.append_assoc, List.append_assoc, escapeByte_append_lt_iff,
      ih (Nat.succ.inj sameLength), List.cons_lt_cons_iff]
    simp only [List.cons.injEq]
    tauto

/-- A bound that is no longer than the strings it is compared with needs no terminator. -/
theorem escaped_le_append_iff {left right : Bytes} (shorter : left.length ≤ right.length) (after : Bytes) :
    escaped left ≤ escaped right ++ after ↔ left ≤ right := by
  induction left generalizing right with
  | nil => simp [← not_lt]
  | cons first left ih =>
    cases right with
    | nil => simp at shorter
    | cons other right =>
      have shorterRest : left.length ≤ right.length := Nat.le_of_succ_le_succ shorter
      rw [escaped_cons, escaped_cons, List.append_assoc, ← not_lt, ← not_lt, escapeByte_append_lt_iff,
        List.cons_lt_cons_iff, ← not_le (a := escaped left), ih shorterRest, not_le]

theorem escaped_zero_lt_iff (left right : Bytes) : escaped left ++ [0] < escaped right ↔ left < right := by
  induction left generalizing right with
  | nil =>
    cases right with
    | nil => simp
    | cons other right =>
      rw [escaped_cons, escapeByte]
      by_cases zero : other = 0
      · rw [if_pos zero]
        simp
      · have above : (0 : UInt8) < other := UInt8.pos_iff_ne_zero.mpr zero
        rw [if_neg zero]
        simp [List.cons_lt_cons_iff, above]
  | cons first left ih =>
    cases right with
    | nil => simp
    | cons other right =>
      rw [escaped_cons, escaped_cons, List.append_assoc, escapeByte_append_lt_iff, ih, List.cons_lt_cons_iff]

theorem packString_lt_iff (left right : Bytes) : packString left < packString right ↔ left < right := by
  change 1 :: (escaped left ++ [0]) < 1 :: (escaped right ++ [0]) ↔ _
  rw [List.cons_lt_cons_iff]
  simp only [lt_irrefl, false_or, true_and]
  induction left generalizing right with
  | nil =>
    cases right with
    | nil => simp
    | cons other right =>
      rw [escaped_cons, escapeByte]
      by_cases zero : other = 0
      · rw [if_pos zero]
        simp
      · have above : (0 : UInt8) < other := UInt8.pos_iff_ne_zero.mpr zero
        rw [if_neg zero]
        simp [List.cons_lt_cons_iff, above]
  | cons first left ih =>
    cases right with
    | nil =>
      rw [escaped_cons, escapeByte]
      by_cases zero : first = 0
      · rw [if_pos zero]
        simp
      · have notBelow : ¬ first < 0 := UInt8.not_lt_zero
        rw [if_neg zero]
        simp [List.cons_lt_cons_iff, zero, notBelow]
    | cons other right =>
      rw [escaped_cons, escaped_cons, List.append_assoc, List.append_assoc, escapeByte_append_lt_iff, ih,
        List.cons_lt_cons_iff]

end ByteCodec
