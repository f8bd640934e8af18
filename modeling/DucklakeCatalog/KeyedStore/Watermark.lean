import DucklakeCatalog.KeyedStore.Batch
import Mathlib.Data.List.Nodup

namespace KeyedStore

variable {K : Type} [LinearOrder K]

namespace Staged

section

variable {key : K} {value : Nat} {writes : List (K × Nat)}

theorem raiseFirst_keys (key : K) (value : Nat) (writes : List (K × Nat)) :
    (putMax.raiseFirst key value writes).map Prod.fst = writes.map Prod.fst := by
  induction writes with
  | nil => rfl
  | cons entry rest ih =>
    rw [putMax.raiseFirst]
    split
    · rfl
    · rw [List.map_cons, List.map_cons, ih]

/-- A raised list holds every earlier value or a larger one. -/
theorem raiseFirst_kept (member : entry ∈ writes) :
    ∃ raised, (entry.1, raised) ∈ putMax.raiseFirst key value writes ∧ entry.2 ≤ raised := by
  induction writes with
  | nil => exact absurd member List.not_mem_nil
  | cons head rest ih =>
    rw [putMax.raiseFirst]
    rcases List.mem_cons.mp member with rfl | later
    · split
      · exact ⟨max entry.2 value, List.mem_cons_self, le_max_left _ _⟩
      · exact ⟨entry.2, List.mem_cons_self, le_rfl⟩
    · split
      · exact ⟨entry.2, List.mem_cons_of_mem _ later, le_rfl⟩
      · obtain ⟨raised, found, above⟩ := ih later
        exact ⟨raised, List.mem_cons_of_mem _ found, above⟩

theorem raiseFirst_origin (member : entry ∈ putMax.raiseFirst key value writes) :
    ∃ earlier, (entry.1, earlier) ∈ writes ∧ earlier ≤ entry.2 := by
  induction writes with
  | nil => exact absurd member List.not_mem_nil
  | cons head rest ih =>
    rw [putMax.raiseFirst] at member
    split at member
    · rcases List.mem_cons.mp member with rfl | later
      · exact ⟨head.2, List.mem_cons_self, le_max_left _ _⟩
      · exact ⟨entry.2, List.mem_cons_of_mem _ later, le_rfl⟩
    · rcases List.mem_cons.mp member with rfl | later
      · exact ⟨entry.2, List.mem_cons_self, le_rfl⟩
      · obtain ⟨earlier, found, above⟩ := ih later
        exact ⟨earlier, List.mem_cons_of_mem _ found, above⟩

theorem raiseFirst_raised (staged : key ∈ writes.map Prod.fst) :
    ∃ raised, (key, raised) ∈ putMax.raiseFirst key value writes ∧ value ≤ raised := by
  induction writes with
  | nil => exact absurd staged List.not_mem_nil
  | cons head rest ih =>
    rw [putMax.raiseFirst]
    split
    · rename_i same
      exact ⟨max head.2 value, same ▸ List.mem_cons_self, le_max_right _ _⟩
    · rename_i different
      rcases List.mem_cons.mp staged with same | later
      · exact absurd same.symm different
      · obtain ⟨raised, found, above⟩ := ih later
        exact ⟨raised, List.mem_cons_of_mem _ found, above⟩

end

/-- Staged maxima: nothing is deleted, each key is written once and no value falls below the stored one. -/
structure Raises (stored : OrderedMap K Nat) (staged : Staged K Nat) : Prop where
  keeps : staged.deletes = []
  once : (staged.writes.map Prod.fst).Nodup
  above : ∀ entry ∈ staged.writes, (stored.get? entry.1).getD 0 ≤ entry.2

variable {stored : OrderedMap K Nat} {staged : Staged K Nat} {key : K} {value : Nat}

theorem Raises.empty (stored : OrderedMap K Nat) : Raises stored {} :=
  ⟨rfl, List.nodup_nil, fun _ member => absurd member List.not_mem_nil⟩

section

variable (raises : Raises stored staged)

include raises

theorem Raises.get?_commit (member : (key, value) ∈ staged.writes) :
    (stored.commit staged).get? key = some value := by
  have onceReversed : (staged.writes.reverse.map Prod.fst).Nodup := by
    rw [List.map_reverse]
    exact List.nodup_reverse.mpr raises.once
  have found : staged.writes.reverse.lookup key = some value := by
    have reversed : (key, value) ∈ staged.writes.reverse := List.mem_reverse.mpr member
    generalize staged.writes.reverse = writes at onceReversed reversed
    induction writes with
    | nil => exact absurd reversed List.not_mem_nil
    | cons head rest ih =>
      obtain ⟨absent, onceRest⟩ := List.nodup_cons.mp onceReversed
      rcases List.mem_cons.mp reversed with rfl | later
      · simp
      · have different : key ≠ head.1 := fun same => absent (same ▸ List.mem_map_of_mem later)
        obtain ⟨headKey, headValue⟩ := head
        simp only [List.lookup_cons, beq_false_of_ne different]
        exact ih onceRest later
  rw [OrderedMap.get?_commit, found]
  rfl

/-- A staged maximum only grows what a commit stores. -/
theorem Raises.le_commit (key : K) :
    (stored.get? key).getD 0 ≤ ((stored.commit staged).get? key).getD 0 := by
  by_cases written : staged.Writes key
  · obtain ⟨value, member⟩ := written
    rw [raises.get?_commit member]
    exact raises.above _ member
  · rw [stored.get?_commit_of_untouched staged key written (by simp [raises.keeps])]

theorem Raises.putMax (above : (stored.get? key).getD 0 ≤ value) :
    Raises stored (staged.putMax key value) := by
  unfold Staged.putMax
  split
  · refine ⟨raises.keeps, ?_, ?_⟩
    · rw [raiseFirst_keys]
      exact raises.once
    · intro entry member
      obtain ⟨earlier, found, below⟩ := raiseFirst_origin member
      exact (raises.above _ found).trans below
  · rename_i unstaged
    refine ⟨raises.keeps, ?_, ?_⟩
    · rw [put, List.map_append, List.nodup_append]
      refine ⟨raises.once, List.nodup_singleton _, ?_⟩
      intro first member second isKey same
      obtain ⟨entry, inside, rfl⟩ := List.mem_map.mp member
      refine unstaged (List.any_eq_true.mpr ⟨entry, inside, decide_eq_true ?_⟩)
      exact same.trans (List.mem_singleton.mp isKey)
    · intro entry member
      rcases List.mem_append.mp member with old | new
      · exact raises.above entry old
      · rw [List.mem_singleton.mp new]
        exact above

/-- The stored value is at least the maximum just staged. -/
theorem Raises.le_putMax (above : (stored.get? key).getD 0 ≤ value) :
    value ≤ ((stored.commit (staged.putMax key value)).get? key).getD 0 := by
  have raised := raises.putMax above
  have written : ∃ largest, (key, largest) ∈ (staged.putMax key value).writes ∧ value ≤ largest := by
    unfold Staged.putMax
    split
    · rename_i present
      obtain ⟨entry, member, same⟩ := List.any_eq_true.mp present
      refine raiseFirst_raised (List.mem_map.mpr ⟨entry, member, ?_⟩)
      simpa using same
    · exact ⟨value, by simp [put], le_rfl⟩
  obtain ⟨largest, member, below⟩ := written
  rw [raised.get?_commit member]
  exact below

/-- Raising one key lowers none. -/
theorem Raises.commit_le_putMax (above : (stored.get? key).getD 0 ≤ value) (query : K) :
    ((stored.commit staged).get? query).getD 0 ≤ ((stored.commit (staged.putMax key value)).get? query).getD 0 := by
  have raised := raises.putMax above
  by_cases written : staged.Writes query
  · obtain ⟨earlier, member⟩ := written
    have kept : ∃ later, (query, later) ∈ (staged.putMax key value).writes ∧ earlier ≤ later := by
      unfold Staged.putMax
      split
      · exact raiseFirst_kept member
      · exact ⟨earlier, List.mem_append_left _ member, le_rfl⟩
    obtain ⟨later, laterMember, below⟩ := kept
    rw [raises.get?_commit member, raised.get?_commit laterMember]
    exact below
  · rw [stored.get?_commit_of_untouched staged query written (by simp [raises.keeps])]
    exact raised.le_commit query

end

end Staged

end KeyedStore
