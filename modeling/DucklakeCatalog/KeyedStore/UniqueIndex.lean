import DucklakeCatalog.KeyedStore.OrderedMap

/-! A unique index beside the rows it indexes: each row has one name, and the
index leads from a name to the key of the row that has it. -/
namespace KeyedStore

variable {K V N : Type} [LinearOrder K] [LinearOrder N] {nameOf : V → N}

/-- The index has an entry for exactly the names of the rows. -/
def Indexes (nameOf : V → N) (index : OrderedMap N K) (rows : OrderedMap K V) : Prop :=
  ∀ name key, index.get? name = some key ↔ ∃ row, rows.get? key = some row ∧ nameOf row = name

/-- No other row has the name. -/
def FreeFor (nameOf : V → N) (rows : OrderedMap K V) (key : K) (name : N) : Prop :=
  ∀ other row, rows.get? other = some row → nameOf row = name → other = key

omit [LinearOrder N] in
theorem freeFor_iff_entries {rows : OrderedMap K V} {key : K} {name : N} :
    FreeFor nameOf rows key name ↔ ∀ entry ∈ rows.entries, nameOf entry.2 = name → entry.1 = key := by
  constructor
  · intro free entry member named
    exact free entry.1 entry.2 ((OrderedMap.get?_eq_some_iff rows).mpr member) named
  · intro free other row found named
    exact free (other, row) ((OrderedMap.get?_eq_some_iff rows).mp found) named

instance (rows : OrderedMap K V) (key : K) (name : N) : Decidable (FreeFor nameOf rows key name) :=
  decidable_of_iff _ freeFor_iff_entries.symm

namespace Indexes

variable {index : OrderedMap N K} {rows : OrderedMap K V} {key : K} {old : V}

theorem empty : Indexes nameOf (.empty : OrderedMap N K) (.empty : OrderedMap K V) := by
  intro name key
  simp

section

variable (indexes : Indexes nameOf index rows)

include indexes

theorem unique {other : K} {left right : V} (found : rows.get? key = some left)
    (foundOther : rows.get? other = some right) (same : nameOf left = nameOf right) : key = other := by
  have first := (indexes (nameOf left) key).mpr ⟨left, found, rfl⟩
  have second := (indexes (nameOf left) other).mpr ⟨right, foundOther, same.symm⟩
  exact Option.some.inj (first.symm.trans second)

theorem create (row : V) (fresh : rows.get? key = none)
    (free : FreeFor nameOf rows key (nameOf row)) :
    Indexes nameOf (index.insert (nameOf row) key) (rows.insert key row) := by
  intro name query
  rw [OrderedMap.get?_insert, OrderedMap.get?_insert]
  by_cases sameKey : query = key
  · subst sameKey
    rw [if_pos rfl]
    by_cases sameName : name = nameOf row
    · simp [sameName]
    · rw [if_neg sameName, indexes]
      simp [fresh, Ne.symm sameName]
  · rw [if_neg sameKey]
    by_cases sameName : name = nameOf row
    · rw [if_pos sameName]
      constructor
      · intro same
        exact absurd (Option.some.inj same).symm sameKey
      · rintro ⟨stored, found, named⟩
        exact absurd (free query stored found (named.trans sameName)) sameKey
    · rw [if_neg sameName]
      exact indexes name query

theorem keep (row : V) (found : rows.get? key = some old) (same : nameOf row = nameOf old) :
    Indexes nameOf index (rows.insert key row) := by
  intro name query
  rw [OrderedMap.get?_insert, indexes]
  by_cases sameKey : query = key
  · subst sameKey
    simp [found, same]
  · rw [if_neg sameKey]

theorem drop (found : rows.get? key = some old) :
    Indexes nameOf (index.erase (nameOf old)) (rows.erase key) := by
  intro name query
  rw [OrderedMap.get?_erase, OrderedMap.get?_erase]
  by_cases sameName : name = nameOf old
  · rw [if_pos sameName]
    by_cases sameKey : query = key
    · simp [sameKey]
    · rw [if_neg sameKey]
      constructor
      · intro impossible
        cases impossible
      · rintro ⟨stored, entry, named⟩
        exact absurd (indexes.unique entry found (named.trans sameName)) sameKey
  · rw [if_neg sameName, indexes]
    by_cases sameKey : query = key
    · simp [sameKey, found, Ne.symm sameName]
    · rw [if_neg sameKey]

theorem rename (row : V) (found : rows.get? key = some old)
    (free : FreeFor nameOf rows key (nameOf row)) :
    Indexes nameOf ((index.erase (nameOf old)).insert (nameOf row) key) (rows.insert key row) := by
  have dropped := indexes.drop found
  have freed : FreeFor nameOf (rows.erase key) key (nameOf row) := by
    intro other stored entry named
    rw [OrderedMap.get?_erase] at entry
    split at entry
    · cases entry
    · exact free other stored entry named
  have created := dropped.create row (by rw [OrderedMap.get?_erase, if_pos rfl]) freed
  have same : (rows.erase key).insert key row = rows.insert key row := by
    refine OrderedMap.ext_get? fun query => ?_
    rw [OrderedMap.get?_insert, OrderedMap.get?_insert, OrderedMap.get?_erase]
    by_cases sameKey : query = key
    · rw [if_pos sameKey, if_pos sameKey]
    · rw [if_neg sameKey, if_neg sameKey, if_neg sameKey]
  rwa [same] at created

end

end Indexes

end KeyedStore
