import DucklakeCatalog.KeyedStore.OrderedSet
import DucklakeCatalog.Kv.Rows
import Mathlib.Data.List.Range

/-! The columns of a table in a catalog payload: parents come first, and siblings keep their order. -/
namespace DucklakeCatalog

open KeyedStore

/-! ## The loop -/

/-- Indexes of columns: those whose parent is out, those that are not out yet, and those that are. -/
structure ColumnQueue where
  ready : List Nat
  remaining : List Nat
  ordered : List Nat := []
  deriving DecidableEq, Repr

section

variable (columns : List TableColumnRow)

def parentAt (index : Nat) : Option ColumnId := columns[index]?.bind TableColumnRow.parentId

def childIndexes (parentId : ColumnId) : List Nat :=
  (List.range columns.length).filter fun index => parentAt columns index = some parentId

namespace ColumnQueue

def start : ColumnQueue where
  ready := (List.range columns.length).filter fun index => (parentAt columns index).isNone
  remaining := List.range columns.length

/-- A column goes out, and its remaining children become ready. -/
def emit (queue : ColumnQueue) (index : Nat) : ColumnQueue :=
  if index ∈ queue.remaining then
    let remaining := queue.remaining.erase index
    let children := (columns[index]?.map fun column => childIndexes columns column.columnId).getD []
    { ready := (queue.ready ++ children.filter (· ∈ remaining)).dedup.insertionSort (· ≤ ·)
      remaining
      ordered := queue.ordered ++ [index] }
  else queue

/-- The first ready column, or else the first of those that remain. -/
def next (queue : ColumnQueue) : Option ColumnQueue :=
  match queue.ready with
  | index :: ready => some ({ queue with ready }.emit columns index)
  | [] => queue.remaining.head?.map (queue.emit columns)

def drain : Nat → ColumnQueue → ColumnQueue
  | 0, queue => queue
  | fuel + 1, queue => (queue.next columns).elim queue (drain fuel)

end ColumnQueue

def drainedColumns : ColumnQueue := (ColumnQueue.start columns).drain columns columns.length

def columnsParentBeforeChildren : List TableColumnRow := (drainedColumns columns).ordered.filterMap (columns[·]?)

end

/-! ## Every column goes out once -/

variable {columns : List TableColumnRow}
variable {index : Nat} {column : TableColumnRow}

theorem mem_childIndexes {parentId : ColumnId} :
    index ∈ childIndexes columns parentId ↔ parentAt columns index = some parentId := by
  rw [childIndexes, List.mem_filter, List.mem_range, decide_eq_true_eq, and_iff_right_iff_imp]
  intro hasParent
  obtain ⟨column, found, -⟩ := Option.bind_eq_some_iff.mp hasParent
  exact (List.getElem?_eq_some_iff.mp found).1

variable {queue : ColumnQueue}

namespace ColumnQueue

def idsOut (columns : List TableColumnRow) (queue : ColumnQueue) : List ColumnId :=
  queue.ordered.filterMap fun index => columns[index]?.map TableColumnRow.columnId

/-- A remaining column is ready just when its parent is out. -/
structure Sound (columns : List TableColumnRow) (queue : ColumnQueue) : Prop where
  sorted : queue.ready.Pairwise (· < ·)
  ready : ∀ index, index ∈ queue.ready ↔
    index ∈ queue.remaining ∧ ∀ parentId, parentAt columns index = some parentId → parentId ∈ queue.idsOut columns
  once : (queue.ordered ++ queue.remaining).Perm (List.range columns.length)

theorem start_sound (columns : List TableColumnRow) : (start columns).Sound columns where
  sorted := List.pairwise_lt_range.filter _
  ready index := by
    simp only [start, idsOut, List.filterMap_nil, List.not_mem_nil, List.mem_filter, Option.isNone_iff_eq_none,
      imp_false, and_congr_right_iff]
    intro _
    exact Option.eq_none_iff_forall_ne_some
  once := List.Perm.refl _

/-- The queue after a remaining column has gone out. -/
theorem Sound.emit {ready : List Nat} (sound : queue.Sound columns)
    (others : ∀ other, other ∈ ready ↔ other ∈ queue.ready ∧ other ≠ index) (member : index ∈ queue.remaining) :
    ({ queue with ready }.emit columns index).Sound columns ∧
      ({ queue with ready }.emit columns index).ordered = queue.ordered ++ [index] ∧
      ({ queue with ready }.emit columns index).remaining = queue.remaining.erase index := by
  have distinct : queue.remaining.Nodup :=
    (List.nodup_append.mp (sound.once.nodup_iff.mpr List.nodup_range)).2.1
  rw [ColumnQueue.emit, if_pos member]
  refine ⟨⟨orderedSet_sorted _, ?_, ?_⟩, rfl, rfl⟩
  · have inside : index < columns.length :=
      List.mem_range.mp (sound.once.mem_iff.mp (List.mem_append_right _ member))
    have found := List.getElem?_eq_getElem inside
    have idsAfter : ColumnQueue.idsOut columns ⟨[], [], queue.ordered ++ [index]⟩ =
        queue.idsOut columns ++ [columns[index].columnId] := by
      rw [idsOut, List.filterMap_append, List.filterMap_cons, found]
      rfl
    intro other
    change other ∈ _ ↔ other ∈ queue.remaining.erase index ∧ ∀ parentId, parentAt columns other = some parentId →
      parentId ∈ ColumnQueue.idsOut columns ⟨[], [], queue.ordered ++ [index]⟩
    rw [idsAfter, mem_orderedSet, List.mem_append, others, sound.ready, List.mem_filter, found, Option.map_some,
      Option.getD_some, mem_childIndexes, decide_eq_true_eq, distinct.mem_erase_iff]
    constructor
    · rintro (⟨⟨remains, parentOut⟩, different⟩ | ⟨isChild, different, remains⟩)
      · exact ⟨⟨different, remains⟩, fun parentId hasParent => List.mem_append_left _ (parentOut parentId hasParent)⟩
      · refine ⟨⟨different, remains⟩, ?_⟩
        intro parentId hasParent
        rw [isChild] at hasParent
        exact List.mem_append_right _ (List.mem_singleton.mpr (Option.some.inj hasParent).symm)
    · rintro ⟨⟨different, remains⟩, parentOut⟩
      by_cases isChild : parentAt columns other = some columns[index].columnId
      · exact Or.inr ⟨isChild, different, remains⟩
      · refine Or.inl ⟨⟨remains, ?_⟩, different⟩
        intro parentId hasParent
        rcases List.mem_append.mp (parentOut parentId hasParent) with earlier | now
        · exact earlier
        · rw [List.mem_singleton.mp now] at hasParent
          exact absurd hasParent isChild
  · refine List.Perm.trans ?_ sound.once
    rw [List.append_assoc]
    exact List.Perm.append_left _ (List.perm_cons_erase member).symm

/-- What one turn of the loop does: the first ready column goes out, or without one the first that remains. -/
theorem Sound.next {later : ColumnQueue} (sound : queue.Sound columns) (turn : queue.next columns = some later) :
    ∃ index ∈ queue.remaining, later.Sound columns ∧ later.ordered = queue.ordered ++ [index] ∧
      later.remaining = queue.remaining.erase index ∧ ∀ other ∈ queue.ready, index ∈ queue.ready ∧ index ≤ other := by
  rw [ColumnQueue.next] at turn
  split at turn
  · rename_i index ready shape
    obtain rfl := Option.some.inj turn
    have first : index ∈ queue.ready := shape ▸ List.mem_cons_self
    have member := ((sound.ready index).mp first).1
    have sorted := sound.sorted
    rw [shape, List.pairwise_cons] at sorted
    have others : ∀ other, other ∈ ready ↔ other ∈ queue.ready ∧ other ≠ index := by
      intro other
      rw [shape, List.mem_cons]
      constructor
      · exact fun later => ⟨Or.inr later, (sorted.1 other later).ne'⟩
      · exact fun both => both.1.resolve_left both.2
    obtain ⟨after, ordered, remaining⟩ := sound.emit others member
    refine ⟨index, member, after, ordered, remaining, ?_⟩
    intro other listed
    refine ⟨first, ?_⟩
    rw [shape] at listed
    rcases List.mem_cons.mp listed with rfl | later
    · exact Nat.le_refl _
    · exact (sorted.1 other later).le
  · rename_i shape
    obtain ⟨index, least, rfl⟩ := Option.map_eq_some_iff.mp turn
    have member := List.mem_of_mem_head? least
    have others : ∀ other, other ∈ queue.ready ↔ other ∈ queue.ready ∧ other ≠ index := by
      intro other
      rw [shape]
      simp
    obtain ⟨after, ordered, remaining⟩ := sound.emit others member
    refine ⟨index, member, after, ordered, remaining, ?_⟩
    intro other listed
    rw [shape] at listed
    cases listed

/-- What every turn preserves holds when the loop ends. -/
theorem Sound.drain_keeps {Keeps : ColumnQueue → Prop} {fuel : Nat}
    (sound : queue.Sound columns) (holds : Keeps queue)
    (kept : ∀ earlier later, earlier.Sound columns → Keeps earlier → earlier.next columns = some later → Keeps later) :
    (queue.drain columns fuel).Sound columns ∧ Keeps (queue.drain columns fuel) := by
  induction fuel generalizing queue with
  | zero => exact ⟨sound, holds⟩
  | succ fuel ih =>
    rw [drain]
    cases turn : queue.next columns with
    | none => exact ⟨sound, holds⟩
    | some later =>
      obtain ⟨_, _, after, _⟩ := sound.next turn
      exact ih after (kept queue later sound holds turn)

/-- Each turn takes a column from those that remain, so there are as many turns as columns. -/
theorem Sound.drain_ends {fuel : Nat} (sound : queue.Sound columns) (enough : queue.remaining.length ≤ fuel) :
    (queue.drain columns fuel).next columns = none ∧ (queue.drain columns fuel).remaining = [] := by
  induction fuel generalizing queue with
  | zero =>
    have empty := List.eq_nil_of_length_eq_zero (Nat.le_zero.mp enough)
    refine ⟨?_, empty⟩
    cases turn : queue.next columns with
    | none => exact turn
    | some later =>
      obtain ⟨index, member, _⟩ := sound.next turn
      rw [empty] at member
      cases member
  | succ fuel ih =>
    rw [drain]
    cases turn : queue.next columns with
    | none =>
      refine ⟨turn, ?_⟩
      rw [ColumnQueue.next] at turn
      split at turn
      · cases turn
      · rw [Option.map_eq_none_iff, List.head?_eq_none_iff] at turn
        exact turn
    | some later =>
      obtain ⟨index, member, after, _, remaining, _⟩ := sound.next turn
      apply ih after
      rw [remaining, List.length_erase_of_mem member]
      omega

end ColumnQueue

theorem drainedColumns_sound (columns : List TableColumnRow) : (drainedColumns columns).Sound columns :=
  ((ColumnQueue.start_sound columns).drain_keeps trivial fun _ _ _ _ _ => trivial).1

theorem drainedColumns_ends (columns : List TableColumnRow) :
    (drainedColumns columns).next columns = none ∧ (drainedColumns columns).remaining = [] :=
  (ColumnQueue.start_sound columns).drain_ends List.length_range.le

theorem ordered_perm (columns : List TableColumnRow) :
    (drainedColumns columns).ordered.Perm (List.range columns.length) := by
  have once := (drainedColumns_sound columns).once
  rwa [(drainedColumns_ends columns).2, List.append_nil] at once

theorem range_getElem? (columns : List TableColumnRow) :
    (List.range columns.length).filterMap (columns[·]?) = columns := by
  induction columns with
  | nil => rfl
  | cons first rest ih =>
    rw [List.length_cons, List.range_succ_eq_map, List.filterMap_cons, List.filterMap_map]
    exact congrArg (first :: ·) ih

theorem columnsParentBeforeChildren_perm (columns : List TableColumnRow) :
    (columnsParentBeforeChildren columns).Perm columns := by
  have same := (ordered_perm columns).filterMap (columns[·]?)
  rwa [range_getElem?] at same

/-! ## Parents first -/

/-- Parent links lead from the column to one that has no parent. -/
inductive Rooted (columns : List TableColumnRow) : TableColumnRow → Prop
  | root {column : TableColumnRow} (listed : column ∈ columns) (top : column.parentId = none) : Rooted columns column
  | child {column parent : TableColumnRow} (listed : column ∈ columns) (hasParent : column.parentId = some parent.columnId)
      (rooted : Rooted columns parent) : Rooted columns column

theorem Rooted.listed (rooted : Rooted columns column) : column ∈ columns := by
  cases rooted with
  | root listed _ => exact listed
  | child listed _ _ => exact listed

namespace ColumnQueue

/-- As long as columns remain, one of them is ready. -/
theorem Sound.ready_of_rooted (sound : queue.Sound columns)
    (rooted : Rooted columns column) (remains : index ∈ queue.remaining)
    (found : columns[index]? = some column) : ∃ other, other ∈ queue.ready := by
  induction rooted generalizing index with
  | root _ top =>
    refine ⟨index, (sound.ready index).mpr ⟨remains, ?_⟩⟩
    intro parentId hasParent
    rw [parentAt, found, Option.bind_some, top] at hasParent
    cases hasParent
  | @child column parent _ hasParent rooted ih =>
    by_cases out : parent.columnId ∈ queue.idsOut columns
    · refine ⟨index, (sound.ready index).mpr ⟨remains, ?_⟩⟩
      intro parentId named
      rw [parentAt, found, Option.bind_some, hasParent] at named
      exact Option.some.inj named ▸ out
    · obtain ⟨above, inside, rfl⟩ := List.mem_iff_getElem.mp rooted.listed
      have aboveFound := List.getElem?_eq_getElem inside
      rcases List.mem_append.mp (sound.once.mem_iff.mpr (List.mem_range.mpr inside)) with gone | waits
      · refine absurd (List.mem_filterMap.mpr ⟨above, gone, ?_⟩) out
        rw [aboveFound, Option.map_some]
      · exact ih waits aboveFound

/-- What is out so far came after its parent, and before the siblings that follow it. -/
structure InOrder (columns : List TableColumnRow) (queue : ColumnQueue) : Prop where
  parents : ∀ before index, before ++ [index] <+: queue.ordered → ∀ parentId,
    parentAt columns index = some parentId →
      parentId ∈ before.filterMap fun above => columns[above]?.map TableColumnRow.columnId
  siblings : queue.ordered.Pairwise fun left right => parentAt columns left = parentAt columns right → left < right
  waiting : ∀ left ∈ queue.ordered, ∀ right ∈ queue.remaining,
    parentAt columns left = parentAt columns right → left < right

theorem InOrder.next {later : ColumnQueue} (order : queue.InOrder columns) (sound : queue.Sound columns)
    (rooted : ∀ column ∈ columns, Rooted columns column) (turn : queue.next columns = some later) :
    later.InOrder columns := by
  obtain ⟨index, member, _, ordered, remaining, first⟩ := sound.next turn
  have inside : index < columns.length :=
    List.mem_range.mp (sound.once.mem_iff.mp (List.mem_append_right _ member))
  have distinct : queue.remaining.Nodup :=
    (List.nodup_append.mp (sound.once.nodup_iff.mpr List.nodup_range)).2.1
  obtain ⟨other, ready⟩ := sound.ready_of_rooted (rooted _ (List.getElem_mem inside)) member
    (List.getElem?_eq_getElem inside)
  have isReady := (first other ready).1
  have parentOut := ((sound.ready index).mp isReady).2
  refine ⟨?_, ?_, ?_⟩
  · intro before placed inOrder
    rw [ordered, List.prefix_concat_iff] at inOrder
    rcases inOrder with last | earlier
    · obtain ⟨rfl, same⟩ := List.append_inj' last rfl
      rw [List.singleton_inj.mp same]
      exact parentOut
    · exact order.parents before placed earlier
  · rw [ordered, List.pairwise_append]
    refine ⟨order.siblings, List.pairwise_singleton _ _, ?_⟩
    intro left leftOut right isNew
    rw [List.mem_singleton.mp isNew]
    exact order.waiting left leftOut index member
  · intro left leftOut right waits same
    rw [remaining, distinct.mem_erase_iff] at waits
    rw [ordered] at leftOut
    rcases List.mem_append.mp leftOut with earlier | now
    · exact order.waiting left earlier right waits.2 same
    · -- A sibling of the column that goes out is ready too, and not the first one.
      rw [List.mem_singleton.mp now] at same ⊢
      have rightReady : right ∈ queue.ready := by
        refine (sound.ready right).mpr ⟨waits.2, ?_⟩
        rw [← same]
        exact parentOut
      exact lt_of_le_of_ne (first right rightReady).2 waits.1.symm

end ColumnQueue

theorem drainedColumns_inOrder (rooted : ∀ column ∈ columns, Rooted columns column) :
    (drainedColumns columns).InOrder columns := by
  have first : (ColumnQueue.start columns).InOrder columns := by
    refine ⟨?_, List.Pairwise.nil, ?_⟩
    · intro before index inOrder
      have empty := List.prefix_nil.mp inOrder
      simp at empty
    · intro left leftOut
      cases leftOut
  exact ((ColumnQueue.start_sound columns).drain_keeps first
    fun earlier later sound order turn => order.next sound rooted turn).2

theorem filterMap_prefix {before : List TableColumnRow} {indexes : List Nat}
    (placed : before ++ [column] <+: indexes.filterMap (columns[·]?)) :
    ∃ earlier index, earlier ++ [index] <+: indexes ∧ earlier.filterMap (columns[·]?) = before ∧
      columns[index]? = some column := by
  obtain ⟨after, split⟩ := placed
  rw [List.append_assoc] at split
  obtain ⟨front, back, rfl, isBefore, isBack⟩ := List.filterMap_eq_append_iff.mp split.symm
  obtain ⟨skipped, index, rest, rfl, nothing, found, _⟩ := List.filterMap_eq_cons_iff.mp isBack
  refine ⟨front ++ skipped, index, ⟨rest, by simp⟩, ?_, found⟩
  rw [List.filterMap_append, isBefore, List.filterMap_eq_nil_iff.mpr nothing, List.append_nil]

theorem columnsParentBeforeChildren_parents (rooted : ∀ column ∈ columns, Rooted columns column)
    {before : List TableColumnRow}
    (placed : before ++ [column] <+: columnsParentBeforeChildren columns) {parentId : ColumnId}
    (hasParent : column.parentId = some parentId) : ∃ parent ∈ before, parent.columnId = parentId := by
  obtain ⟨earlier, index, inOrder, rfl, found⟩ := filterMap_prefix placed
  have named : parentAt columns index = some parentId := by rw [parentAt, found, Option.bind_some, hasParent]
  have out := (drainedColumns_inOrder rooted).parents earlier index inOrder parentId named
  obtain ⟨above, listed, isParent⟩ := List.mem_filterMap.mp out
  obtain ⟨parent, aboveFound, rfl⟩ := Option.map_eq_some_iff.mp isParent
  exact ⟨parent, List.mem_filterMap.mpr ⟨above, listed, aboveFound⟩, rfl⟩

theorem filter_siblings (parentId : Option ColumnId) (indexes : List Nat)
    (inside : ∀ index ∈ indexes, index < columns.length) :
    (indexes.filterMap (columns[·]?)).filter (fun column => column.parentId = parentId) =
      (indexes.filter fun index => parentAt columns index = parentId).filterMap (columns[·]?) := by
  rw [List.filter_filterMap, List.filterMap_filter]
  apply List.filterMap_congr
  intro index member
  have found := inside index member
  rw [parentAt, List.getElem?_eq_getElem found]
  by_cases same : columns[index].parentId = parentId
  · simp [same]
  · simp [same]

theorem columnsParentBeforeChildren_siblings (rooted : ∀ column ∈ columns, Rooted columns column)
    (parentId : Option ColumnId) :
    (columnsParentBeforeChildren columns).filter (fun column => column.parentId = parentId) =
      columns.filter fun column => column.parentId = parentId := by
  have permuted := ordered_perm columns
  have same : (drainedColumns columns).ordered.filter (fun index => parentAt columns index = parentId) =
      (List.range columns.length).filter fun index => parentAt columns index = parentId := by
    have increasing : ((drainedColumns columns).ordered.filter fun index => parentAt columns index = parentId).Pairwise
        (· < ·) := by
      rw [List.pairwise_filter]
      apply (drainedColumns_inOrder rooted).siblings.imp
      intro left right before isLeft isRight
      exact before ((of_decide_eq_true isLeft).trans (of_decide_eq_true isRight).symm)
    exact List.Perm.eq_of_pairwise (fun _ _ _ _ below above => absurd above below.asymm) increasing
      (List.pairwise_lt_range.filter _) (permuted.filter _)
  rw [columnsParentBeforeChildren, filter_siblings, same, ← filter_siblings, range_getElem?]
  · exact fun index member => List.mem_range.mp member
  · exact fun index member => List.mem_range.mp (permuted.mem_iff.mp member)

end DucklakeCatalog
