import DucklakeCatalog.KeyedStore.PagedScan

/-! The entries between two keys, and what is left of them behind a page. -/
namespace KeyedStore

variable {K V : Type} [LinearOrder K]

namespace OrderedMap

/-- The entries from `start` on and before `stop`. -/
def range (map : OrderedMap K V) (start stop : K) (direction : RangeDirection) : List (K × V) :=
  map.rangeEntries direction fun key => decide (start ≤ key) && decide (key < stop)

theorem mem_range {map : OrderedMap K V} {start stop : K} {direction : RangeDirection} {entry : K × V} :
    entry ∈ map.range start stop direction ↔
      map.get? entry.1 = some entry.2 ∧ start ≤ entry.1 ∧ entry.1 < stop := by
  simp [range, mem_rangeEntries]

theorem range_sorted (map : OrderedMap K V) (start stop : K) (direction : RangeDirection) :
    (map.range start stop direction).Pairwise fun left right => direction.Before left.1 right.1 :=
  map.rangeEntries_sorted direction _

theorem range_eq_nil (map : OrderedMap K V) {start stop : K} (empty : stop ≤ start) (direction : RangeDirection) :
    map.range start stop direction = [] := by
  apply List.eq_nil_iff_forall_not_mem.mpr
  intro entry member
  obtain ⟨_, above, below⟩ := mem_range.mp member
  exact absurd (above.trans_lt below) empty.not_gt

theorem length_range_le (map : OrderedMap K V) (start stop : K) (direction : RangeDirection) :
    (map.range start stop direction).length ≤ map.entries.length := by
  cases direction
  · exact List.length_filter_le _ _
  · exact (List.length_reverse ..).le.trans (List.length_filter_le _ _)

end OrderedMap

/-- What follows a page in a sorted list is what lies past the page's last entry. -/
theorem mem_behind_page {direction : RangeDirection} {page rest : List (K × V)} {last entry : K × V}
    (sorted : (page ++ rest).Pairwise fun left right => direction.Before left.1 right.1)
    (ends : page.getLast? = some last) :
    entry ∈ rest ↔ entry ∈ page ++ rest ∧ direction.Before last.1 entry.1 := by
  obtain ⟨front, rfl⟩ := List.getLast?_eq_some_iff.mp ends
  obtain ⟨sortedPage, _, across⟩ := List.pairwise_append.mp sorted
  constructor
  · intro member
    exact ⟨List.mem_append_right _ member, across last (by simp) entry member⟩
  · rintro ⟨member, past⟩
    rcases List.mem_append.mp member with inPage | later
    · rcases List.mem_append.mp inPage with earlier | own
      · have before := (List.pairwise_append.mp sortedPage).2.2 entry earlier last (List.mem_singleton_self _)
        exact absurd (before.trans past) (direction.not_before_self _)
      · rw [List.mem_singleton.mp own] at past
        exact absurd past (direction.not_before_self _)
    · exact later

/-- A key from which exactly the keys behind another one go on. -/
def Follows (after : K → K) : Prop := ∀ last key, after last ≤ key ↔ last < key

/-- The bounds of the range behind a page that ended with `last`. -/
def RangeDirection.continuation (direction : RangeDirection) (after : K → K) (start stop last : K) : K × K :=
  match direction with
  | .forward => (after last, stop)
  | .reverse => (start, last)

/-- A range read up to the last key of a page goes on with what the page left over. -/
theorem OrderedMap.range_continuation {map : OrderedMap K V} {start stop : K} {direction : RangeDirection}
    {after : K → K} (follows : Follows after) {page rest : List (K × V)} {last : K × V}
    (split : map.range start stop direction = page ++ rest) (ends : page.getLast? = some last) :
    let bounds := direction.continuation after start stop last.1
    map.range bounds.1 bounds.2 direction = rest := by
  have sorted := map.range_sorted start stop direction
  have inside : last ∈ map.range start stop direction :=
    split ▸ List.mem_append_left _ (List.mem_of_getLast? ends)
  obtain ⟨_, above, below⟩ := mem_range.mp inside
  have behind {entry : K × V} := @mem_behind_page K V _ direction page rest last entry (split ▸ sorted) ends
  have sortedRest := (List.pairwise_append.mp (split ▸ sorted)).2.1
  intro bounds
  refine List.Pairwise.eq_of_mem_iff (map.range_sorted _ _ direction) sortedRest ?_
  intro entry
  rw [behind, ← split, mem_range, mem_range]
  cases direction with
  | forward =>
    change _ ∧ after last.1 ≤ entry.1 ∧ entry.1 < stop ↔ _ ∧ last.1 < entry.1
    rw [follows]
    constructor
    · rintro ⟨found, past, within⟩
      exact ⟨⟨found, above.trans past.le, within⟩, past⟩
    · rintro ⟨⟨found, _, within⟩, past⟩
      exact ⟨found, past, within⟩
  | reverse =>
    change _ ∧ start ≤ entry.1 ∧ entry.1 < last.1 ↔ _ ∧ entry.1 < last.1
    constructor
    · rintro ⟨found, within, past⟩
      exact ⟨⟨found, within, past.trans below⟩, past⟩
    · rintro ⟨⟨found, within, _⟩, past⟩
      exact ⟨found, within, past⟩

/-- A store that answers a read with a front of the range, as long as it likes but not
empty. What it answers may change from one read to the next. -/
structure PagedBackend (map : OrderedMap K V) (E : Type) where
  scanRange : Nat → K → K → RangeDirection → Nat → Except E (List (K × V))
  answersFront : ∀ reads start stop direction limit, 0 < limit → ∃ page rest,
    scanRange reads start stop direction limit = .ok page ∧ map.range start stop direction = page ++ rest ∧
      page.length ≤ limit ∧ (page = [] → rest = [])

/-- An ordered store whose entries a counter up to `most` can count. -/
structure CountedMap (K V : Type) [LinearOrder K] (most : Nat) where
  map : OrderedMap K V
  counted : map.entries.length ≤ most

end KeyedStore
