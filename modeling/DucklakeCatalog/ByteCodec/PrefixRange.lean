import DucklakeCatalog.ByteCodec.KeyOrder
import DucklakeCatalog.ByteCodec.SelfDelimiting

/-! The keys behind a prefix as a range of the store: it ends at the prefix taken as a
numeral and counted up by one. -/
namespace ByteCodec

/-- The numeral is read from its last byte on: what is full turns to zero, and the first
byte that is not takes the carry. -/
def countUp : Bytes → Option Bytes
  | [] => none
  | byte :: rest => if byte < 0xff then some ((byte + 1) :: rest) else (countUp rest).map (0 :: ·)

def prefixEnd (front : Bytes) : Bytes :=
  ((countUp front.reverse).map List.reverse).getD (List.replicate front.length 0 ++ [0])

theorem length_countUp {numeral next : Bytes} (counted : countUp numeral = some next) :
    next.length = numeral.length := by
  induction numeral generalizing next with
  | nil => simp [countUp] at counted
  | cons byte rest ih =>
    rw [countUp] at counted
    split at counted
    · cases counted
      simp
    · obtain ⟨later, found, rfl⟩ := Option.map_eq_some_iff.mp counted
      simp [ih found]

theorem lt_succ_byte_iff {byte : UInt8} (small : byte < 0xff) (other : UInt8) : other < byte + 1 ↔ other ≤ byte := by
  rw [UInt8.lt_iff_toNat_lt] at small
  rw [UInt8.lt_iff_toNat_lt, UInt8.le_iff_toNat_le, UInt8.toNat_add]
  have bound : (byte.toNat + 1) % 2 ^ 8 = byte.toNat + 1 := Nat.mod_eq_of_lt (by simpa using Nat.succ_lt_succ small)
  simp only [UInt8.toNat_one, bound]
  omega

/-- Between a numeral and the next one of its width there is none. -/
theorem lt_countUp_iff {numeral next other : Bytes} (counted : countUp numeral = some next)
    (sameLength : other.length = numeral.length) : other.reverse < next.reverse ↔ other.reverse ≤ numeral.reverse := by
  induction numeral generalizing next other with
  | nil => simp [countUp] at counted
  | cons byte rest ih =>
    obtain ⟨letter, others, rfl⟩ := List.exists_cons_of_length_eq_add_one sameLength
    have shorter : others.length = rest.length := Nat.succ.inj sameLength
    have aligned : rest.reverse.length = others.reverse.length := by simp [shorter]
    have known : (letter :: others).reverse ≤ (byte :: rest).reverse ↔
        others.reverse < rest.reverse ∨ others.reverse = rest.reverse ∧ letter ≤ byte := by
      rw [← not_lt, List.reverse_cons, List.reverse_cons, append_lt_append_iff aligned]
      simp only [List.cons_lt_cons_iff, List.not_lt_nil, and_false, or_false, not_or, not_lt, not_and]
      constructor
      · intro both
        rcases both.1.lt_or_eq with below | same
        · exact Or.inl below
        · exact Or.inr ⟨same, both.2 same.symm⟩
      · intro either
        rcases either with below | ⟨same, least⟩
        · exact ⟨below.le, fun equal => absurd equal below.ne'⟩
        · exact ⟨same.le, fun _ => least⟩
    rw [known]
    rw [countUp] at counted
    by_cases small : byte < 0xff
    · rw [if_pos small] at counted
      cases counted
      rw [List.reverse_cons, List.reverse_cons, append_lt_append_iff aligned.symm]
      simp only [List.cons_lt_cons_iff, List.not_lt_nil, and_false, or_false, lt_succ_byte_iff small]
    · rw [if_neg small] at counted
      obtain ⟨later, found, rfl⟩ := Option.map_eq_some_iff.mp counted
      have full : letter ≤ byte := by
        rw [UInt8.lt_iff_toNat_lt] at small
        rw [UInt8.le_iff_toNat_le]
        have limit := letter.toNat_lt
        simp only [UInt8.reduceToNat] at small
        omega
      have laterAligned : others.reverse.length = later.reverse.length := by
        simp [length_countUp found, shorter]
      have notBelow : ¬ letter < 0 := UInt8.not_lt_zero
      rw [List.reverse_cons, List.reverse_cons, append_lt_append_iff laterAligned]
      simp only [List.cons_lt_cons_iff, List.not_lt_nil, and_false, or_false, notBelow, full, and_true, ih found shorter,
        le_iff_lt_or_eq]

/-- The keys of at least its length behind a prefix are those that begin with it. -/
theorem between_prefixEnd_iff {front next key : Bytes} (counted : countUp front.reverse = some next)
    (long : front.length ≤ key.length) : front ≤ key ∧ key < prefixEnd front ↔ front <+: key := by
  have width : (key.take front.length).reverse.length = front.reverse.length := by simp [long]
  have step := lt_countUp_iff counted width
  have aligned : (key.take front.length).length = next.reverse.length := by
    rw [List.length_reverse, length_countUp counted, List.length_reverse, List.length_take_of_le long]
  have upper : key < next.reverse ↔ key.take front.length < next.reverse := by
    have split := append_lt_append_iff aligned (key.drop front.length) []
    rw [List.take_append_drop, List.append_nil] at split
    rw [split]
    simp
  have lower : front ≤ key ↔ front ≤ key.take front.length := by
    have split := le_append_iff (by simp [long] : front.length ≤ (key.take front.length).length) (key.drop front.length)
    rwa [List.take_append_drop] at split
  rw [prefixEnd, counted, Option.map_some, Option.getD_some, upper, lower]
  rw [List.reverse_reverse, List.reverse_reverse] at step
  rw [step, List.prefix_iff_eq_take]
  exact ⟨fun both => le_antisymm both.1 both.2, fun same => ⟨same.le, same.ge⟩⟩

/-- A prefix that does not end in a full byte needs no carry. -/
theorem between_prefixEnd_concat_iff {front : Bytes} {last : UInt8} (small : last < 0xff) (key : Bytes) :
    front ++ [last] ≤ key ∧ key < prefixEnd (front ++ [last]) ↔ front ++ [last] <+: key := by
  have counted : countUp (front ++ [last]).reverse = some ((last + 1) :: front.reverse) := by
    rw [List.reverse_append, List.reverse_singleton, List.singleton_append, countUp, if_pos small]
  by_cases long : (front ++ [last]).length ≤ key.length
  · exact between_prefixEnd_iff counted long
  · constructor
    · intro between
      have stop : prefixEnd (front ++ [last]) = front ++ [last + 1] := by
        rw [prefixEnd, counted]
        simp
      rw [stop] at between
      obtain ⟨rest, rfl⟩ := prefix_of_between ((le_append_self front [last]).trans between.1) between.2
      have empty : rest = [] := by
        simp only [List.length_append, List.length_singleton, not_le] at long
        exact List.length_eq_zero_iff.mp (by omega)
      rw [empty] at between
      have notAbove := (append_lt_append_left_iff front [] [last]).mpr (by simp)
      exact absurd between.1 (not_le.mpr notAbove)
    · intro begins
      exact absurd begins.length_le long

theorem countUp_append (low high : Bytes) :
    countUp (low ++ high) =
      ((countUp low).map (· ++ high)).or ((countUp high).map (List.replicate low.length 0 ++ ·)) := by
  induction low with
  | nil => simp [countUp]
  | cons byte rest ih =>
    rw [List.cons_append, countUp, countUp, ih]
    by_cases small : byte < 0xff
    · simp [small]
    · rw [if_neg small, if_neg small]
      cases countUp rest with
      | some next => simp
      | none => cases countUp high <;> simp [List.replicate_succ]

/-- The carry of what stands behind a byte reaches that byte at most. -/
theorem prefix_or_succ_of_between {front tail key : Bytes} {byte : UInt8} (small : byte < 0xff)
    (above : front ++ [byte] ++ tail ≤ key) (below : key < prefixEnd (front ++ [byte] ++ tail)) :
    front ++ [byte] <+: key ∨ front ++ [byte + 1] <+: key := by
  have counted : countUp (front ++ [byte]).reverse = some ((byte + 1) :: front.reverse) := by
    rw [List.reverse_append, List.reverse_singleton, List.singleton_append, countUp, if_pos small]
  rw [prefixEnd, List.reverse_append, countUp_append, counted] at below
  cases carried : countUp tail.reverse with
  | some next =>
    rw [carried] at below
    have stop : key < front ++ [byte] ++ next.reverse := by simpa using below
    exact Or.inl (prefix_of_between ((le_append_self _ tail).trans above) stop)
  | none =>
    rw [carried] at below
    have stop : key < front ++ ([byte + 1] ++ List.replicate tail.length 0) := by simpa using below
    rw [List.append_assoc] at above
    obtain ⟨rest, rfl⟩ := prefix_of_between ((le_append_self front _).trans above) stop
    rw [append_le_append_left_iff] at above
    rw [append_lt_append_left_iff] at stop
    cases rest with
    | nil => exact absurd above (not_le.mpr (List.nil_lt_cons byte tail))
    | cons other rest =>
      rw [← not_lt, List.singleton_append, List.cons_lt_cons_iff, not_or, not_lt] at above
      rw [List.singleton_append, List.cons_lt_cons_iff, lt_succ_byte_iff small] at stop
      rcases stop with least | ⟨same, -⟩
      · have same : other = byte := le_antisymm least above.1
        exact Or.inl ⟨rest, by simp [same]⟩
      · exact Or.inr ⟨rest, by simp [same]⟩

end ByteCodec
