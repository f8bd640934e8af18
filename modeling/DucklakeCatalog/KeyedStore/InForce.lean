import DucklakeCatalog.KeyedStore.OrderedMap

/-! Values that each begin at a key, and the one in force at a point. -/
namespace KeyedStore

variable {K V : Type} [LinearOrder K]

/-- The rows that began at the point or before it. -/
def begunBy (rows : List (K × V)) (point : K) : List (K × V) := rows.filter fun row => decide (row.1 ≤ point)

/-- The rows that began after one point and by another. -/
def begunSince (rows : List (K × V)) (first last : K) : List (K × V) :=
  rows.filter fun row => decide (first < row.1) && decide (row.1 ≤ last)

/-- The value that began last. -/
def inForce (rows : List (K × V)) (point : K) : Option V := (begunBy rows point).getLast?.map Prod.snd

section

variable {rows : List (K × V)} {row : K × V} {first point last : K}

theorem mem_begunBy : row ∈ begunBy rows point ↔ row ∈ rows ∧ row.1 ≤ point := by
  rw [begunBy, List.mem_filter, decide_eq_true_eq]

theorem mem_begunSince : row ∈ begunSince rows first last ↔ row ∈ rows ∧ first < row.1 ∧ row.1 ≤ last := by
  rw [begunSince, List.mem_filter, Bool.and_eq_true, decide_eq_true_eq, decide_eq_true_eq]

theorem KeySorted.begunBy (sorted : KeySorted rows) (point : K) : KeySorted (begunBy rows point) :=
  List.Pairwise.filter _ sorted

theorem KeySorted.begunSince (sorted : KeySorted rows) (first last : K) : KeySorted (begunSince rows first last) :=
  List.Pairwise.filter _ sorted

/-- What began up to a point began up to an earlier one or after it. -/
theorem KeySorted.begunBy_split (sorted : KeySorted rows) (later : first ≤ point) :
    KeyedStore.begunBy rows point = KeyedStore.begunBy rows first ++ KeyedStore.begunSince rows first point := by
  refine List.Pairwise.eq_of_mem_iff (sorted.begunBy point) ?_ ?_
  · refine List.pairwise_append.mpr ⟨sorted.begunBy first, sorted.begunSince first point, ?_⟩
    intro left leftMember right rightMember
    exact (mem_begunBy.mp leftMember).2.trans_lt (mem_begunSince.mp rightMember).2.1
  · intro row
    rw [List.mem_append, mem_begunBy, mem_begunBy, mem_begunSince]
    constructor
    · rintro ⟨member, within⟩
      rcases le_or_gt row.1 first with before | after
      · exact Or.inl ⟨member, before⟩
      · exact Or.inr ⟨member, after, within⟩
    · rintro (⟨member, before⟩ | ⟨member, _, within⟩)
      · exact ⟨member, before.trans later⟩
      · exact ⟨member, within⟩

theorem begunBy_begunSince (below : point ≤ last) :
    begunBy (begunSince rows first last) point = begunSince rows first point := by
  rw [begunBy, begunSince, begunSince, List.filter_filter]
  refine List.filter_congr ?_
  intro row _
  by_cases within : row.1 ≤ point
  · simp [within, within.trans below]
  · simp [within]

/-- The scan from the front of a sorted list up to a point finds what began by then. -/
theorem KeySorted.takeWhile_eq_begunBy (sorted : KeySorted rows) (point : K) :
    (rows.takeWhile fun row => decide (row.1 ≤ point)) = KeyedStore.begunBy rows point := by
  rw [KeyedStore.begunBy]
  induction rows with
  | nil => rfl
  | cons row rest ih =>
    obtain ⟨above, sortedRest⟩ := List.pairwise_cons.mp sorted
    by_cases within : row.1 ≤ point
    · rw [List.takeWhile_cons_of_pos (by simpa using within), List.filter_cons_of_pos (by simpa using within),
        ih sortedRest]
    · have none : rest.filter (fun row => decide (row.1 ≤ point)) = [] := by
        refine List.filter_eq_nil_iff.mpr ?_
        intro other member
        simpa using (not_le.mp within).trans (above other member)
      rw [List.takeWhile_cons_of_neg (by simpa using within), List.filter_cons_of_neg (by simpa using within), none]

/-- The value in force at a point is the last one to begin since an earlier point, or else
the one in force there. -/
theorem KeySorted.inForce_since (sorted : KeySorted rows) (later : first ≤ point) :
    inForce rows point = ((KeyedStore.begunSince rows first point).getLast?.map Prod.snd).or (inForce rows first) := by
  rw [inForce, sorted.begunBy_split later, List.getLast?_append, inForce]
  cases (KeyedStore.begunSince rows first point).getLast? with
  | none => rfl
  | some row => rfl

/-- Where the values count the rows, the value in force counts the rows begun by then. -/
theorem KeySorted.inForce_numbered (sorted : KeySorted rows) {number : Nat → V}
    (numbered : rows.map Prod.snd = (List.range rows.length).map fun index => number (index + 1)) (point : K) :
    inForce rows point =
      if (KeyedStore.begunBy rows point).length = 0 then none
      else some (number (KeyedStore.begunBy rows point).length) := by
  obtain ⟨rest, split⟩ := List.takeWhile_prefix (l := rows) fun row => decide (row.1 ≤ point)
  rw [sorted.takeWhile_eq_begunBy point] at split
  rw [inForce]
  generalize KeyedStore.begunBy rows point = begun at split
  cases last : begun.getLast? with
  | none => simp [List.getLast?_eq_none_iff.mp last]
  | some row =>
    obtain ⟨front, same⟩ := List.getLast?_eq_some_iff.mp last
    have value : (rows.map Prod.snd)[front.length]? = some row.2 := by simp [← split, same]
    rw [numbered, List.getElem?_map, List.getElem?_range (by simp [← split, same])] at value
    have numberOf : number (front.length + 1) = row.2 := by simpa using value
    simp [same, numberOf]

end

/-- The item before the partition point is the last one that the scan takes. -/
theorem getElem?_takeWhile_length {α β : Type} (items : List α) (taken : α → Bool) (view : α → β) (otherwise : β) :
    (if (items.takeWhile taken).length = 0 then otherwise
      else (items[(items.takeWhile taken).length - 1]?.map view).getD otherwise) =
      ((items.takeWhile taken).getLast?.map view).getD otherwise := by
  obtain ⟨rest, split⟩ := List.takeWhile_prefix (l := items) taken
  generalize items.takeWhile taken = front at split
  subst split
  rw [List.getLast?_eq_getElem?]
  by_cases empty : front.length = 0
  · simp [List.length_eq_zero_iff.mp empty]
  · rw [if_neg empty, List.getElem?_append_left (by omega)]

end KeyedStore
