import Mathlib.Data.List.Dedup
import Mathlib.Data.List.Sort

namespace KeyedStore

section

variable {α : Type} [LinearOrder α]

/-- An ordered set is determined by its members. -/
theorem orderedSet_congr {left right : List α} (same : ∀ item, item ∈ left ↔ item ∈ right) :
    left.dedup.insertionSort (· ≤ ·) = right.dedup.insertionSort (· ≤ ·) := by
  have members : left.dedup.Perm right.dedup := by
    rw [List.perm_ext_iff_of_nodup left.nodup_dedup right.nodup_dedup]
    intro item
    rw [List.mem_dedup, List.mem_dedup, same]
  refine List.Perm.eq_of_pairwise' (List.pairwise_insertionSort _ _) (List.pairwise_insertionSort _ _) ?_
  exact ((List.perm_insertionSort _ _).trans members).trans (List.perm_insertionSort _ _).symm

theorem orderedSet_of_sorted {items : List α} (sorted : items.Pairwise (· < ·)) :
    items.dedup.insertionSort (· ≤ ·) = items := by
  have distinct : items.Nodup := sorted.imp fun below => below.ne
  rw [distinct.dedup]
  exact List.Pairwise.insertionSort_eq (sorted.imp fun below => below.le)

theorem orderedSet_sorted (items : List α) : (items.dedup.insertionSort (· ≤ ·)).Pairwise (· < ·) := by
  have ordered := List.pairwise_insertionSort (fun left right : α => left ≤ right) items.dedup
  have distinct : (items.dedup.insertionSort (· ≤ ·)).Nodup :=
    (List.perm_insertionSort _ _).nodup_iff.mpr items.nodup_dedup
  exact (ordered.and distinct).imp fun both => lt_of_le_of_ne both.1 both.2

theorem mem_orderedSet {items : List α} {item : α} :
    item ∈ items.dedup.insertionSort (· ≤ ·) ↔ item ∈ items := by
  rw [List.mem_insertionSort, List.mem_dedup]

/-- Sorting by distinct keys forgets the order in which the items arrived. -/
theorem insertionSort_key_perm {β : Type} {key : β → α} {arrived items : List β} (permuted : arrived.Perm items)
    (distinct : (items.map key).Nodup) :
    arrived.insertionSort (fun left right => key left ≤ key right) =
      items.insertionSort fun left right => key left ≤ key right := by
  have injective := List.inj_on_of_nodup_map distinct
  let before := fun left right : β => key left ≤ key right
  have : Std.Total before := ⟨fun left right => le_total (key left) (key right)⟩
  have : IsTrans β before := ⟨fun _ _ _ first second => le_trans first second⟩
  refine @List.Perm.eq_of_pairwise _ before _ _ ?_ (List.pairwise_insertionSort _ _) (List.pairwise_insertionSort _ _) ?_
  · intro left right leftIn rightIn below above
    have leftItem := permuted.mem_iff.mp (List.mem_insertionSort _ |>.mp leftIn)
    have rightItem := List.mem_insertionSort _ |>.mp rightIn
    exact injective leftItem rightItem (le_antisymm below above)
  · exact ((List.perm_insertionSort _ _).trans permuted).trans (List.perm_insertionSort _ _).symm

/-- What a scan of sorted items up to a bound leaves lies past the bound. -/
theorem lt_of_mem_dropWhile {items : List α} {bound item : α} (sorted : items.Pairwise (· < ·))
    (left : item ∈ items.dropWhile fun other => decide (other ≤ bound)) : bound < item := by
  induction items with
  | nil => simp at left
  | cons first rest ih =>
    obtain ⟨below, sortedRest⟩ := List.pairwise_cons.mp sorted
    rw [List.dropWhile_cons] at left
    split at left
    · exact ih sortedRest left
    · rename_i past
      have above : bound < first := not_le.mp fun reached => past (decide_eq_true reached)
      rcases List.mem_cons.mp left with rfl | later
      · exact above
      · exact above.trans (below item later)

/-- Sorted items up to a bound below a group: at most one is in the group, and it counts once. -/
theorem length_filter_notMem_add {items group : List α} {least : α} (sorted : items.Pairwise (· < ·))
    (above : ∀ item ∈ group, least ≤ item) (reached : ∀ item ∈ items, item ≤ least) :
    (items.filter fun item => item ∉ group).length + (if items.any fun item => item ∈ group then 1 else 0) =
      items.length := by
  induction items with
  | nil => simp
  | cons first rest ih =>
    obtain ⟨below, sortedRest⟩ := List.pairwise_cons.mp sorted
    have counted := ih sortedRest fun item member => reached item (List.mem_cons_of_mem _ member)
    by_cases inside : first ∈ group
    · -- The first item is the least member of the group, so none follows it.
      have isLeast : first = least := le_antisymm (reached first List.mem_cons_self) (above first inside)
      have none : rest = [] := by
        rw [List.eq_nil_iff_forall_not_mem]
        intro item member
        have later := below item member
        rw [isLeast] at later
        exact absurd (reached item (List.mem_cons_of_mem _ member)) (not_le.mpr later)
      simp [none, inside]
    · simp only [List.filter_cons, inside, not_false_eq_true, decide_true, if_true, List.length_cons, List.any_cons,
        decide_false, Bool.false_or]
      omega

end

end KeyedStore
