import Mathlib.Data.List.Basic

/-! Replacing a stretch of a byte string in place. -/
namespace ByteCodec

variable {α : Type}

/-- `patch` in place of as many entries from `offset` on. -/
def overwrite (offset : Nat) (patch bytes : List α) : List α :=
  bytes.take offset ++ patch ++ bytes.drop (offset + patch.length)

theorem overwrite_middle {before old patch after : List α} (sameLength : patch.length = old.length) :
    overwrite before.length patch (before ++ old ++ after) = before ++ patch ++ after := by
  have front : (before ++ old ++ after).take before.length = before := by
    rw [List.append_assoc, List.take_left]
  have back : (before ++ old ++ after).drop (before.length + patch.length) = after := by
    rw [sameLength, ← List.length_append, List.drop_left]
  rw [overwrite, front, back]

/-- What stands in front of the stretch is carried along. -/
theorem overwrite_append (front patch bytes : List α) (offset : Nat) :
    overwrite (front.length + offset) patch (front ++ bytes) = front ++ overwrite offset patch bytes := by
  rw [overwrite, overwrite, Nat.add_assoc, List.take_length_add_append, List.drop_length_add_append, List.append_assoc,
    List.append_assoc, List.append_assoc]

/-- A word that is found again one period further on repeats that period. -/
theorem append_shift_iff {period tail : List α} (sameLength : period.length = tail.length) (count : Nat) {word : List α}
    (length : word.length = count * period.length) :
    period ++ word = word ++ tail ↔ period = tail ∧ word = (List.replicate count period).flatten := by
  induction count generalizing word with
  | zero =>
    have empty : word = [] := List.length_eq_zero_iff.mp (by simpa using length)
    subst empty
    simp
  | succ count ih =>
    have long : period.length ≤ word.length := by
      rw [length]
      exact Nat.le_mul_of_pos_left _ (Nat.succ_pos count)
    constructor
    · intro shifted
      have starts : period <+: word :=
        List.prefix_of_prefix_length_le ⟨word, rfl⟩ ⟨tail, shifted.symm⟩ long
      obtain ⟨rest, rfl⟩ := starts
      have restLength : rest.length = count * period.length := by
        rw [List.length_append, Nat.succ_mul] at length
        omega
      rw [List.append_assoc, List.append_cancel_left_eq] at shifted
      obtain ⟨same, repeats⟩ := (ih restLength).mp shifted
      refine ⟨same, ?_⟩
      rw [repeats, List.replicate_succ, List.flatten_cons]
    · rintro ⟨same, repeats⟩
      subst same
      rw [repeats, List.replicate_succ, List.flatten_cons, List.append_assoc, List.append_cancel_left_eq]
      exact (ih (by simp [List.length_flatten])).mpr ⟨rfl, rfl⟩

end ByteCodec
