import DucklakeCatalog.ByteCodec.SelfDelimiting
import Mathlib.Data.List.Lex
import Mathlib.Tactic.Tauto

/-! Byte strings in the order of an ordered store: the first differing byte decides, and a
proper prefix comes first. -/
namespace ByteCodec

instance byteOrder : LinearOrder UInt8 where
  le_refl _ := UInt8.le_rfl
  le_trans _ _ _ := UInt8.le_trans
  le_antisymm _ _ := UInt8.le_antisymm
  le_total := UInt8.le_total
  lt_iff_le_not_ge _ _ := ⟨fun below => ⟨UInt8.le_of_lt below, UInt8.not_le.mpr below⟩, fun both => UInt8.not_le.mp both.2⟩
  toDecidableLE := inferInstance

variable {α : Type} [LinearOrder α]

theorem append_lt_append_left_iff (front left right : List α) : front ++ left < front ++ right ↔ left < right := by
  induction front with
  | nil => rfl
  | cons first rest ih =>
    rw [List.cons_append, List.cons_append, List.cons_lt_cons_iff, ih]
    simp

theorem append_le_append_left_iff (front left right : List α) : front ++ left ≤ front ++ right ↔ left ≤ right := by
  rw [← not_lt, append_lt_append_left_iff, not_lt]

/-- Words that are cut at one place: the earlier part decides first. -/
theorem append_lt_append_iff {left right : List α} (sameLength : left.length = right.length)
    (afterLeft afterRight : List α) :
    left ++ afterLeft < right ++ afterRight ↔ left < right ∨ left = right ∧ afterLeft < afterRight := by
  induction left generalizing right with
  | nil =>
    have empty : right = [] := List.length_eq_zero_iff.mp sameLength.symm
    subst empty
    simp
  | cons first left ih =>
    obtain ⟨other, right, rfl⟩ := List.exists_cons_of_length_eq_add_one sameLength.symm
    rw [List.cons_append, List.cons_append, List.cons_lt_cons_iff, List.cons_lt_cons_iff, ih (Nat.succ.inj sameLength)]
    simp only [List.cons.injEq]
    tauto

theorem le_append_iff {left right : List α} (shorter : left.length ≤ right.length) (after : List α) :
    left ≤ right ++ after ↔ left ≤ right := by
  induction left generalizing right with
  | nil => simp [← not_lt]
  | cons first left ih =>
    cases right with
    | nil => simp at shorter
    | cons other right =>
      have shorterRest : left.length ≤ right.length := Nat.le_of_succ_le_succ shorter
      rw [List.cons_append, ← not_lt, ← not_lt, List.cons_lt_cons_iff, List.cons_lt_cons_iff,
        ← not_le (a := left), ih shorterRest, not_le]

theorem le_append_self (front tail : List α) : front ≤ front ++ tail := (le_append_iff le_rfl tail).mpr le_rfl

/-- Nothing lies between a key and the same key with the least letter behind it. -/
theorem append_least_le_iff {least : α} (isLeast : ∀ letter, least ≤ letter) {key other : List α} :
    key ++ [least] ≤ other ↔ key < other := by
  induction key generalizing other with
  | nil =>
    cases other with
    | nil => simp [← not_lt]
    | cons first rest => simpa [← not_lt, List.cons_lt_cons_iff] using isLeast first
  | cons letter key ih =>
    cases other with
    | nil => simp [← not_lt]
    | cons first rest =>
      rw [← not_lt, List.cons_append, List.cons_lt_cons_iff, List.cons_lt_cons_iff, not_or, not_lt, not_and, not_lt]
      rw [← @ih rest]
      constructor
      · intro both
        rcases both.1.lt_or_eq with below | same
        · exact Or.inl below
        · exact Or.inr ⟨same, both.2 same.symm⟩
      · intro either
        rcases either with below | ⟨same, later⟩
        · exact ⟨below.le, fun equal => absurd equal below.ne'⟩
        · exact ⟨same.le, fun _ => later⟩

/-- What lies between a word and the words that begin with it begins with it, too. -/
theorem prefix_of_between {front tail key : List α} (above : front ≤ key) (below : key < front ++ tail) :
    front <+: key := by
  induction front generalizing key with
  | nil => exact List.nil_prefix
  | cons letter front ih =>
    rw [← not_lt] at above
    cases key with
    | nil => exact absurd (List.nil_lt_cons letter front) above
    | cons first key =>
      rw [List.cons_lt_cons_iff, not_or, not_and, not_lt] at above
      rw [List.cons_append, List.cons_lt_cons_iff] at below
      rcases below with smaller | ⟨same, below⟩
      · exact absurd smaller above.1.not_gt
      · rw [same]
        exact List.cons_prefix_cons.mpr ⟨rfl, ih (not_lt.mp (above.2 same)) below⟩

/-- A tail behind one of two words of one length only decides between equal words. -/
theorem lt_append_iff {tail : List α} (nonempty : tail ≠ []) {left right : List α}
    (sameLength : left.length = right.length) : left < right ++ tail ↔ left ≤ right := by
  induction left generalizing right with
  | nil =>
    have empty : right = [] := List.length_eq_zero_iff.mp sameLength.symm
    subst empty
    obtain ⟨first, rest, rfl⟩ := List.exists_cons_of_ne_nil nonempty
    simp
  | cons first left ih =>
    obtain ⟨other, right, rfl⟩ := List.exists_cons_of_length_eq_add_one sameLength.symm
    have shorter : left.length = right.length := Nat.succ.inj sameLength
    rw [List.cons_append, List.cons_lt_cons_iff, ih shorter, ← not_lt, ← not_lt, List.cons_lt_cons_iff]
    constructor
    · intro either below
      rcases either with ahead | ⟨same, later⟩
      · rcases below with behind | ⟨equal, _⟩
        · exact absurd behind ahead.not_gt
        · exact absurd equal ahead.ne'
      · rcases below with behind | ⟨_, under⟩
        · exact absurd same behind.ne'
        · exact later under
    · intro notBelow
      rcases lt_trichotomy first other with ahead | same | behind
      · exact Or.inl ahead
      · exact Or.inr ⟨same, fun under => notBelow (Or.inr ⟨same.symm, under⟩)⟩
      · exact absurd (Or.inl behind) notBelow

/-! ## Numbers -/

/-- Numbers of two digits in any base: the high one decides first. -/
theorem digits_lt_iff {base leftHigh rightHigh leftLow rightLow : Nat} (leftSmall : leftLow < base)
    (rightSmall : rightLow < base) :
    leftLow + base * leftHigh < rightLow + base * rightHigh ↔
      leftHigh < rightHigh ∨ leftHigh = rightHigh ∧ leftLow < rightLow := by
  rcases lt_trichotomy leftHigh rightHigh with below | same | above
  · have step : base * (leftHigh + 1) ≤ base * rightHigh := Nat.mul_le_mul_left base below
    rw [Nat.mul_add] at step
    constructor
    · exact fun _ => Or.inl below
    · intro _
      omega
  · subst same
    simp
  · have step : base * (rightHigh + 1) ≤ base * leftHigh := Nat.mul_le_mul_left base above
    rw [Nat.mul_add] at step
    constructor
    · intro less
      omega
    · intro either
      rcases either with less | ⟨same, _⟩
      · omega
      · omega

/-- Numbers written big-endian at one width are in the order of the numbers. -/
theorem beBytes_lt_iff (width left right : Nat) :
    beBytes width left < beBytes width right ↔ left % 256 ^ width < right % 256 ^ width := by
  induction width with
  | zero => simp [beBytes, Nat.mod_one]
  | succ width ih =>
    have leftSmall : left % 256 ^ width < 256 ^ width := Nat.mod_lt _ (Nat.pow_pos (by decide))
    have rightSmall : right % 256 ^ width < 256 ^ width := Nat.mod_lt _ (Nat.pow_pos (by decide))
    rw [beBytes, beBytes, List.cons_lt_cons_iff, ih, Nat.mod_pow_succ, Nat.mod_pow_succ, digits_lt_iff leftSmall rightSmall,
      UInt8.lt_iff_toNat_lt, ← UInt8.toNat_inj, UInt8.toNat_ofNat', UInt8.toNat_ofNat']

end ByteCodec
