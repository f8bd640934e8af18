import DucklakeCatalog.KeyedStore.UniqueIndex
import Mathlib.Algebra.BigOperators.Group.List.Basic
import Mathlib.Algebra.GroupWithZero.Nat

/-! Maps that keep only some of their entries, and how many entries there are and what they weigh together. -/
namespace KeyedStore

variable {K V N : Type} [LinearOrder K] [LinearOrder N]

namespace OrderedMap

variable {map : OrderedMap K V} {key : K} {value : V}

def retain (map : OrderedMap K V) (keep : K → V → Bool) : OrderedMap K V where
  entries := map.entries.filter fun entry => keep entry.1 entry.2
  sorted := List.Pairwise.filter _ map.sorted

theorem get?_retain_eq_some {keep : K → V → Bool} :
    (map.retain keep).get? key = some value ↔ map.get? key = some value ∧ keep key value = true := by
  rw [get?_eq_some_iff, retain, List.mem_filter, get?_eq_some_iff]

theorem length_retain_le (map : OrderedMap K V) (keep : K → V → Bool) :
    (map.retain keep).entries.length ≤ map.entries.length := List.length_filter_le _ _

theorem length_insert_of_none (missing : map.get? key = none) (value : V) :
    (map.insert key value).entries.length = map.entries.length + 1 := by
  rw [(entries_insert_perm map key value).length_eq, entries_erase_of_none missing, List.length_cons]

theorem length_erase_of_some (found : map.get? key = some value) :
    (map.erase key).entries.length + 1 = map.entries.length := by
  rw [(entries_perm_erase found).length_eq, List.length_cons]

theorem length_insert_of_some (found : map.get? key = some value) (other : V) :
    (map.insert key other).entries.length = map.entries.length := by
  rw [(entries_insert_perm map key other).length_eq, List.length_cons, length_erase_of_some found]

/-- What the entries weigh together. -/
def total (weight : V → Nat) (map : OrderedMap K V) : Nat := (map.entries.map fun entry => weight entry.2).sum

theorem total_erase (weight : V → Nat) (found : map.get? key = some value) :
    weight value + (map.erase key).total weight = map.total weight := by
  rw [total, total, ((entries_perm_erase found).map fun entry => weight entry.2).sum_eq]
  rfl

theorem total_insert_of_none (weight : V → Nat) (missing : map.get? key = none) (value : V) :
    (map.insert key value).total weight = weight value + map.total weight := by
  rw [total, total, ((entries_insert_perm map key value).map fun entry => weight entry.2).sum_eq,
    entries_erase_of_none missing]
  rfl

/-- A new value that weighs what the old one weighed. -/
theorem total_insert_of_same (weight : V → Nat) (found : map.get? key = some value) {other : V}
    (same : weight other = weight value) : (map.insert key other).total weight = map.total weight := by
  rw [total, ((entries_insert_perm map key other).map fun entry => weight entry.2).sum_eq, ← total_erase weight found,
    ← same]
  rfl

end OrderedMap

namespace Indexes

variable {nameOf : V → N} {index : OrderedMap N K} {rows : OrderedMap K V}

/-- The index loses the names of the rows that are not retained. -/
theorem retain (indexes : Indexes nameOf index rows) (keep : K → V → Bool) :
    Indexes nameOf (index.retain fun _ key => ((rows.retain keep).get? key).isSome) (rows.retain keep) := by
  intro name key
  rw [OrderedMap.get?_retain_eq_some, indexes]
  constructor
  · rintro ⟨⟨row, found, named⟩, stays⟩
    obtain ⟨kept, keptFound⟩ := Option.isSome_iff_exists.mp stays
    refine ⟨kept, keptFound, ?_⟩
    obtain rfl := Option.some.inj (found.symm.trans (OrderedMap.get?_retain_eq_some.mp keptFound).1)
    exact named
  · rintro ⟨row, found, named⟩
    exact ⟨⟨row, (OrderedMap.get?_retain_eq_some.mp found).1, named⟩, found ▸ rfl⟩

/-- There are as many names as rows. -/
theorem length_eq (indexes : Indexes nameOf index rows) : index.entries.length = rows.entries.length := by
  have keys : (index.entries.map Prod.snd).Perm (rows.entries.map Prod.fst) := by
    apply (List.perm_ext_iff_of_nodup ?_ ?_).mpr
    · intro key
      constructor
      · intro member
        obtain ⟨⟨name, _⟩, listed, rfl⟩ := List.mem_map.mp member
        obtain ⟨row, found, _⟩ := (indexes name _).mp ((OrderedMap.get?_eq_some_iff index).mpr listed)
        exact List.mem_map_of_mem (f := Prod.fst) ((OrderedMap.get?_eq_some_iff rows).mp found)
      · intro member
        obtain ⟨⟨_, row⟩, listed, rfl⟩ := List.mem_map.mp member
        have named := (indexes (nameOf row) _).mpr ⟨row, (OrderedMap.get?_eq_some_iff rows).mpr listed, rfl⟩
        exact List.mem_map_of_mem (f := Prod.snd) ((OrderedMap.get?_eq_some_iff index).mp named)
    · rw [List.nodup_iff_pairwise_ne, List.pairwise_map]
      apply List.Pairwise.imp_of_mem _ index.sorted
      rintro ⟨left, key⟩ ⟨right, other⟩ leftListed rightListed below same
      have leftNamed := (indexes left key).mp ((OrderedMap.get?_eq_some_iff index).mpr leftListed)
      have rightNamed := (indexes right other).mp ((OrderedMap.get?_eq_some_iff index).mpr rightListed)
      obtain ⟨row, found, rfl⟩ := leftNamed
      obtain ⟨otherRow, otherFound, rfl⟩ := rightNamed
      rw [show key = other from same] at found
      rw [Option.some.inj (found.symm.trans otherFound)] at below
      exact lt_irrefl _ below
    · rw [List.nodup_iff_pairwise_ne, List.pairwise_map]
      exact rows.sorted.imp fun below => below.ne
  have lengths := keys.length_eq
  rwa [List.length_map, List.length_map] at lengths

end Indexes

end KeyedStore
