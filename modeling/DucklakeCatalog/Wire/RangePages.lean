import DucklakeCatalog.ByteCodec.KeyOrder
import DucklakeCatalog.ByteCodec.SelfDelimiting
import DucklakeCatalog.KeyedStore.Fallible
import DucklakeCatalog.KeyedStore.RangeScan
import DucklakeCatalog.Kv.Rows

namespace DucklakeCatalog.Wire

open ByteCodec KeyedStore

/-- The key and the value of an item. -/
abbrev RangeItem := Bytes × Bytes

def keyAfterScanItem (key : Bytes) : Bytes := key ++ [0]

theorem keyAfterScanItem_follows : Follows keyAfterScanItem :=
  fun _ _ => append_least_le_iff fun _ => UInt8.zero_le

/-! ## The loop -/

def PAGE_SIZE : Nat := 256

/-- The variables of the loop, with what the visitor has made of the items so far and the
number of reads behind it. -/
structure PageVisit (σ : Type) where
  pageStart : Bytes
  pageEnd : Bytes
  remainingProbe : Option Nat
  visited : Nat := 0
  seen : σ
  reads : Nat := 0

/-- How one turn of the loop ends. -/
inductive PageTurn (σ : Type) where
  | returns (visited : Nat) (seen : σ)
  | continues (state : PageVisit σ)

section Loop

variable {σ : Type} (scanRange : Nat → Bytes → Bytes → RangeDirection → Nat → CatalogResult (List RangeItem))
  (direction : RangeDirection) (visit : σ → RangeItem → CatalogResult σ)

def visitItem (state : Nat × σ) (item : RangeItem) : CatalogResult (Nat × σ) := do
  let seen ← visit state.2 item
  return (saturatingAdd state.1 1, seen)

def PageVisit.pageLimit (state : PageVisit σ) : Nat := state.remainingProbe.elim PAGE_SIZE (min · PAGE_SIZE)

def PageVisit.turn (state : PageVisit σ) : CatalogResult (PageTurn σ) :=
  if state.pageLimit = 0 then .ok (.returns state.visited state.seen)
  else do
    let page ← scanRange state.reads state.pageStart state.pageEnd direction state.pageLimit
    match page.getLast? with
    | none => .ok (.returns state.visited state.seen)
    | some last =>
      if state.pageLimit < page.length then
        .error (.invalidMutation "paged catalog scan returned more items than requested")
      else do
        let (visited, seen) ← page.foldlM (visitItem visit) (state.visited, state.seen)
        let remainingProbe := state.remainingProbe.map (· - page.length)
        if remainingProbe = some 0 then .ok (.returns visited seen)
        else
          let bounds := direction.continuation keyAfterScanItem state.pageStart state.pageEnd last.1
          .ok (.continues ⟨bounds.1, bounds.2, remainingProbe, visited, seen, state.reads + 1⟩)

def visitPages : Nat → PageVisit σ → Option (CatalogResult (Nat × σ))
  | 0, _ => none
  | fuel + 1, state =>
    match state.turn scanRange direction visit with
    | .error failure => some (.error failure)
    | .ok (.returns visited seen) => some (.ok (visited, seen))
    | .ok (.continues next) => visitPages fuel next

/-- Visits a range page by page and counts the visits; `none` when the fuel is used up. -/
def scanRangePages (start stop : Bytes) (maxItems : Option Nat) (seen : σ) (fuel : Nat) :
    Option (CatalogResult (Nat × σ)) :=
  if stop ≤ start then some (.ok (0, seen))
  else visitPages scanRange direction visit fuel
    { pageStart := start, pageEnd := stop, remainingProbe := maxItems.map (saturatingAdd · 1), seen }

end Loop

/-! ## What the loop visits -/

section Exact

variable {σ : Type} {store : OrderedMap Bytes Bytes} (backend : PagedBackend store CatalogError)
  {direction : RangeDirection} {visit : σ → RangeItem → CatalogResult σ}

/-- The items the loop has still to visit. -/
def PageVisit.wanted (store : OrderedMap Bytes Bytes) (direction : RangeDirection) (state : PageVisit σ) :
    List RangeItem :=
  let rest := store.range state.pageStart state.pageEnd direction
  state.remainingProbe.elim rest (rest.take ·)

theorem PageVisit.pageLimit_eq_zero {state : PageVisit σ} : state.pageLimit = 0 ↔ state.remainingProbe = some 0 := by
  cases probe : state.remainingProbe with
  | none
  | some remaining => simp [pageLimit, probe, PAGE_SIZE]

/-- A page no longer than its limit is the front of what is wanted. -/
theorem PageVisit.wanted_split {state : PageVisit σ} {page rest : List RangeItem}
    (split : store.range state.pageStart state.pageEnd direction = page ++ rest)
    (short : page.length ≤ state.pageLimit) :
    state.wanted store direction = page ++ (state.remainingProbe.map (· - page.length)).elim rest (rest.take ·) := by
  cases probe : state.remainingProbe with
  | none => simp [wanted, probe, split]
  | some remaining =>
    have within : page.length ≤ remaining := by
      rw [pageLimit, probe] at short
      exact short.trans (min_le_left _ _)
    simp [wanted, probe, split, List.take_append, List.take_of_length_le within]

/-- What is left for the rest of the loop after the items of one turn. -/
inductive PageVisit.Turned (store : OrderedMap Bytes Bytes) (direction : RangeDirection)
    (visit : σ → RangeItem → CatalogResult σ) (state : PageVisit σ) : CatalogResult (PageTurn σ) → Prop
  | finished : state.wanted store direction = [] → Turned store direction visit state
      (.ok (.returns state.visited state.seen))
  | fails {page later : List RangeItem} {failure : CatalogError} :
      state.wanted store direction = page ++ later →
      page.foldlM (visitItem visit) (state.visited, state.seen) = .error failure →
      Turned store direction visit state (.error failure)
  | last {page : List RangeItem} {visited : Nat} {seen : σ} : state.wanted store direction = page →
      page.foldlM (visitItem visit) (state.visited, state.seen) = .ok (visited, seen) →
      Turned store direction visit state (.ok (.returns visited seen))
  | continued {page : List RangeItem} {next : PageVisit σ} : page ≠ [] →
      state.wanted store direction = page ++ next.wanted store direction →
      page.foldlM (visitItem visit) (state.visited, state.seen) = .ok (next.visited, next.seen) →
      Turned store direction visit state (.ok (.continues next))

theorem PageVisit.turned (state : PageVisit σ) :
    state.Turned store direction visit (state.turn backend.scanRange direction visit) := by
  rw [turn]
  split_ifs with exhausted
  · refine Turned.finished ?_
    simp [wanted, pageLimit_eq_zero.mp exhausted]
  · obtain ⟨page, rest, answered, split, short, final⟩ := backend.answersFront state.reads state.pageStart
      state.pageEnd direction state.pageLimit (Nat.pos_of_ne_zero exhausted)
    have divided := wanted_split split short
    rw [answered, ok_bind]
    cases ends : page.getLast? with
    | none =>
      have empty : page = [] := List.getLast?_eq_none_iff.mp ends
      refine Turned.finished ?_
      rw [divided, empty, final empty]
      cases state.remainingProbe <;> simp
    | some last =>
      have nonempty : page ≠ [] := fun empty => by simp [empty] at ends
      simp only [if_neg short.not_gt]
      cases folded : page.foldlM (visitItem visit) (state.visited, state.seen) with
      | error failure => exact Turned.fails divided folded
      | ok outcome =>
        simp only [ok_bind]
        split_ifs with done
        · refine Turned.last ?_ folded
          rw [divided, done]
          simp
        · refine Turned.continued nonempty ?_ folded
          have goesOn := OrderedMap.range_continuation keyAfterScanItem_follows split ends
          rw [divided, wanted]
          simp only [goesOn]

theorem visitPages_eq (fuel : Nat) (state : PageVisit σ) (enough : (state.wanted store direction).length < fuel) :
    visitPages backend.scanRange direction visit fuel state =
      some ((state.wanted store direction).foldlM (visitItem visit) (state.visited, state.seen)) := by
  induction fuel generalizing state with
  | zero => omega
  | succ fuel ih =>
    rw [visitPages]
    have turned : state.Turned store direction visit (state.turn backend.scanRange direction visit) :=
      state.turned backend
    revert turned
    generalize state.turn backend.scanRange direction visit = outcome
    intro turned
    cases turned with
    | finished nothing => rw [nothing]; rfl
    | fails split folded => rw [split, List.foldlM_append, folded]; rfl
    | last same folded => rw [same, folded]
    | continued nonempty split folded =>
      have fewer := List.length_pos_iff.mpr nonempty
      rw [split, List.length_append] at enough
      rw [split, List.foldlM_append, folded, ok_bind]
      exact ih _ (by omega)

/-- The counter of the loop counts the visits. -/
theorem foldlM_visitItem {items : List RangeItem} {visited : Nat} (fits : visited + items.length ≤ u64Max) (seen : σ) :
    items.foldlM (visitItem visit) (visited, seen) =
      (items.foldlM visit seen).map fun seen => (visited + items.length, seen) := by
  induction items generalizing visited seen with
  | nil => rfl
  | cons item rest ih =>
    rw [List.length_cons] at fits
    have counted : saturatingAdd visited 1 = visited + 1 := by
      rw [saturatingAdd]
      omega
    rw [List.foldlM_cons, List.foldlM_cons, visitItem]
    cases visit seen item with
    | error failure => rfl
    | ok next =>
      simp only [ok_bind, pure, Except.pure, counted]
      rw [ih (by omega), List.length_cons]
      congr 1
      funext seen
      rw [Nat.add_assoc, Nat.add_comm rest.length]

end Exact

/-- The visited items are the first ones of the range, one more than the limit. -/
theorem scanRangePages_eq {σ : Type} {store : CountedMap Bytes Bytes u64Max}
    (backend : PagedBackend store.map CatalogError) (direction : RangeDirection)
    (visit : σ → RangeItem → CatalogResult σ) (start stop : Bytes) (maxItems : Option Nat) (seen : σ) (fuel : Nat)
    (enough : (store.map.range start stop direction).length < fuel) :
    let range := store.map.range start stop direction
    let items := maxItems.elim range fun limit => range.take (limit + 1)
    scanRangePages backend.scanRange direction visit start stop maxItems seen fuel =
      some ((items.foldlM visit seen).map fun seen => (items.length, seen)) := by
  intro range items
  have counted : range.length ≤ u64Max := (store.map.length_range_le start stop direction).trans store.counted
  rw [scanRangePages]
  split_ifs with empty
  · have nothing : range = [] := store.map.range_eq_nil empty direction
    have none : items = [] := by
      cases maxItems <;> simp [items, nothing]
    rw [none]
    rfl
  · have wanted : PageVisit.wanted store.map direction
        { pageStart := start, pageEnd := stop, remainingProbe := maxItems.map (saturatingAdd · 1), seen } = items := by
      cases maxItems with
      | none => rfl
      | some limit =>
        change range.take (saturatingAdd limit 1) = range.take (limit + 1)
        rw [saturatingAdd, List.take_eq_take_iff]
        omega
    have shorter : items.length ≤ range.length := by
      cases maxItems with
      | none => exact le_rfl
      | some limit => exact List.length_take_le' _ _
    have fits : 0 + items.length ≤ u64Max := by
      rw [Nat.zero_add]
      exact shorter.trans counted
    rw [visitPages_eq backend fuel _ (by rw [wanted]; exact shorter.trans_lt enough), wanted, foldlM_visitItem fits,
      Nat.zero_add]

end DucklakeCatalog.Wire
