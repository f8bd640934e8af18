import DucklakeCatalog.KeyedStore.OrderedMap

/-! Rows that have their names to themselves, under changes of several rows at a time. -/
namespace KeyedStore

variable {K V N : Type} [LinearOrder K] {nameOf : V → N}

/-- No two rows have one name. -/
def UniqueNames (nameOf : V → N) (rows : OrderedMap K V) : Prop :=
  ∀ left right leftRow rightRow, rows.get? left = some leftRow → rows.get? right = some rightRow →
    nameOf leftRow = nameOf rightRow → left = right

/-- Names of changed rows that are distinct and taken by no row that stays. -/
structure FreshNames (nameOf : V → N) (rows : OrderedMap K V) (changed : K → Option V) : Prop where
  distinct : ∀ left right leftRow rightRow, changed left = some leftRow → changed right = some rightRow →
    nameOf leftRow = nameOf rightRow → left = right
  free : ∀ key row other stays, changed key = some row → changed other = none → rows.get? other = some stays →
    nameOf stays ≠ nameOf row

namespace UniqueNames

theorem empty : UniqueNames nameOf (.empty : OrderedMap K V) := by
  intro left right leftRow rightRow found
  simp at found

theorem change {before after : OrderedMap K V} {changed : K → Option V} (unique : UniqueNames nameOf before)
    (fresh : FreshNames nameOf before changed)
    (becomes : ∀ key, after.get? key = (changed key).or (before.get? key)) : UniqueNames nameOf after := by
  intro left right leftRow rightRow foundLeft foundRight same
  rw [becomes] at foundLeft foundRight
  cases changesLeft : changed left with
  | some newLeft =>
    rw [changesLeft] at foundLeft
    obtain rfl : newLeft = leftRow := by simpa using foundLeft
    cases changesRight : changed right with
    | some newRight =>
      rw [changesRight] at foundRight
      obtain rfl : newRight = rightRow := by simpa using foundRight
      exact fresh.distinct left right newLeft newRight changesLeft changesRight same
    | none =>
      rw [changesRight] at foundRight
      exact absurd same.symm (fresh.free left newLeft right rightRow changesLeft changesRight foundRight)
  | none =>
    rw [changesLeft] at foundLeft
    cases changesRight : changed right with
    | some newRight =>
      rw [changesRight] at foundRight
      obtain rfl : newRight = rightRow := by simpa using foundRight
      exact absurd same (fresh.free right newRight left leftRow changesRight changesLeft foundLeft)
    | none =>
      rw [changesRight] at foundRight
      exact unique left right leftRow rightRow foundLeft foundRight same

/-- A row that keeps its name takes none from the others. -/
theorem fresh_keep {rows : OrderedMap K V} {key : K} {old row : V} (unique : UniqueNames nameOf rows)
    (found : rows.get? key = some old) (same : nameOf row = nameOf old) :
    FreshNames nameOf rows fun query => if query = key then some row else none where
  distinct left right leftRow rightRow isLeft isRight _ := by
    split_ifs at isLeft isRight with leftKey rightKey
    exact leftKey.trans rightKey.symm
  free query new other stays isNew isOld foundOther := by
    split_ifs at isNew isOld with isKey otherKey
    obtain rfl := Option.some.inj isNew
    intro taken
    exact otherKey (unique other key stays old foundOther found (taken.trans same))

end UniqueNames

/-- A single new name is fresh if no other row has it. -/
theorem freshNames_single {rows : OrderedMap K V} {key : K} {row : V}
    (free : ∀ other stays, other ≠ key → rows.get? other = some stays → nameOf stays ≠ nameOf row) :
    FreshNames nameOf rows fun query => if query = key then some row else none where
  distinct left right leftRow rightRow isLeft isRight _ := by
    split_ifs at isLeft isRight with leftKey rightKey
    exact leftKey.trans rightKey.symm
  free query new other stays isNew isOld foundOther := by
    split_ifs at isNew isOld with isKey otherKey
    obtain rfl := Option.some.inj isNew
    exact free other stays otherKey foundOther

/-- What insertions under distinct keys leave in the map. -/
theorem get?_foldl_insert_distinct {ι : Type} (keyOf : ι → K) (valueOf : ι → V) {items : List ι}
    (distinct : (items.map keyOf).Nodup) (map : OrderedMap K V) (query : K) :
    (items.foldl (fun map item => map.insert (keyOf item) (valueOf item)) map).get? query =
      ((items.find? fun item => keyOf item = query).map valueOf).or (map.get? query) := by
  induction items generalizing map with
  | nil => rfl
  | cons item rest ih =>
    obtain ⟨notLater, distinctRest⟩ := List.nodup_cons.mp distinct
    rw [List.foldl_cons, ih distinctRest]
    by_cases same : keyOf item = query
    · have none : rest.find? (fun item => decide (keyOf item = query)) = none := by
        refine List.find?_eq_none.mpr ?_
        intro other member found
        exact notLater (List.mem_map.mpr ⟨other, member, (of_decide_eq_true found).trans same.symm⟩)
      simp [none, same]
    · rw [List.find?_cons_of_neg (by simpa using same), OrderedMap.get?_insert_ne _ _ (Ne.symm same)]

end KeyedStore
