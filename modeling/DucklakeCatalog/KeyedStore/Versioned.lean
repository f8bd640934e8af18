import DucklakeCatalog.KeyedStore.OrderedMap
import Mathlib.Data.Prod.Lex

/-! Versions of rows under their ids and begin orders. The version of an id that
has not ended is open; it is the newest one. -/
namespace KeyedStore

variable {V : Type} (endOf : V → Option Nat)

abbrev Versions (V : Type) := OrderedMap (Nat ×ₗ Nat) V

/-- The id has an open version with this row. -/
def Opened (versions : Versions V) (id : Nat) (row : V) : Prop :=
  ∃ order, versions.get? (toLex (id, order)) = some row ∧ endOf row = none

structure VersionsWithin (versions : Versions V) (through : Nat) : Prop where
  past : ∀ {id order row}, versions.get? (toLex (id, order)) = some row →
    order ≤ through ∧ ∀ endOrder, endOf row = some endOrder → endOrder ≤ through
  newest : ∀ {id order row later next}, versions.get? (toLex (id, order)) = some row → endOf row = none →
    versions.get? (toLex (id, later)) = some next → later ≤ order

/-- A commit stores the rows at their keys, one after another. -/
def storeVersions (versions : Versions V) (writes : List ((Nat ×ₗ Nat) × V)) : Versions V :=
  writes.foldl (fun stored write => stored.insert write.1 write.2) versions

/-- Each write ends the open version of its id where that is, or opens a new one once that is ended. -/
structure WritesFit (versions : Versions V) (through order : Nat) (writes : List ((Nat ×ₗ Nat) × V)) : Prop where
  later : through < order
  kinds : ∀ {id begun row}, (toLex (id, begun), row) ∈ writes →
    (endOf row = some order ∧ begun ≤ through ∧ ∀ {stored openRow}, versions.get? (toLex (id, stored)) = some openRow →
      endOf openRow = none → stored = begun) ∨ (endOf row = none ∧ begun = order)
  ended : ∀ {id row}, (toLex (id, order), row) ∈ writes → ∀ {stored openRow},
    versions.get? (toLex (id, stored)) = some openRow → endOf openRow = none →
      ∃ closed, (toLex (id, stored), closed) ∈ writes

namespace VersionsWithin

variable {endOf} {versions : Versions V} {through order : Nat} {writes : List ((Nat ×ₗ Nat) × V)}

theorem opened_unique (within : VersionsWithin endOf versions through) {id : Nat} {left right : V}
    (leftOpen : Opened endOf versions id left) (rightOpen : Opened endOf versions id right) : left = right := by
  obtain ⟨first, leftFound, leftOpen⟩ := leftOpen
  obtain ⟨second, rightFound, rightOpen⟩ := rightOpen
  have same : first = second :=
    Nat.le_antisymm (within.newest rightFound rightOpen leftFound) (within.newest leftFound leftOpen rightFound)
  subst same
  exact Option.some.inj (leftFound.symm.trans rightFound)

/-- What a key holds after the writes. -/
theorem storeVersions_cases (versions : Versions V) (writes : List ((Nat ×ₗ Nat) × V)) (key : Nat ×ₗ Nat) :
    (∃ row, (key, row) ∈ writes ∧ (storeVersions versions writes).get? key = some row) ∨
      ((∀ row, (key, row) ∉ writes) ∧ (storeVersions versions writes).get? key = versions.get? key) := by
  rcases OrderedMap.get?_foldl_insert_cases versions writes Prod.fst Prod.snd key with
    ⟨write, member, rfl, found⟩ | ⟨missed, kept⟩
  · exact Or.inl ⟨write.2, member, found⟩
  · exact Or.inr ⟨fun row member => missed (key, row) member rfl, kept⟩

/-- An open version that no write ends has no newer version among the writes either. -/
theorem not_written (fit : WritesFit endOf versions through order writes) {id begun : Nat} {row : V}
    (found : versions.get? (toLex (id, begun)) = some row) (isOpen : endOf row = none)
    (kept : ∀ row, (toLex (id, begun), row) ∉ writes) (stored : Nat) (other : V) :
    (toLex (id, stored), other) ∉ writes := by
  intro member
  rcases fit.kinds member with ⟨_, _, only⟩ | ⟨_, rfl⟩
  · obtain rfl := only found isOpen
    exact kept other member
  · obtain ⟨closed, ends⟩ := fit.ended member found isOpen
    exact kept closed ends

theorem after_writes (within : VersionsWithin endOf versions through)
    (fit : WritesFit endOf versions through order writes) :
    VersionsWithin endOf (storeVersions versions writes) order where
  past := by
    intro id begun row found
    rcases storeVersions_cases versions writes (toLex (id, begun)) with ⟨written, member, stored⟩ | ⟨_, kept⟩
    · obtain rfl := Option.some.inj (stored.symm.trans found)
      rcases fit.kinds member with ⟨ends, before, _⟩ | ⟨isOpen, rfl⟩
      · refine ⟨before.trans fit.later.le, ?_⟩
        intro endOrder ended
        exact (Option.some.inj (ends.symm.trans ended)).ge
      · refine ⟨le_rfl, ?_⟩
        intro endOrder ended
        rw [isOpen] at ended
        cases ended
    · obtain ⟨before, ended⟩ := within.past (kept.symm.trans found)
      exact ⟨before.trans fit.later.le, fun endOrder ends => (ended endOrder ends).trans fit.later.le⟩
  newest := by
    intro id begun row later next found isOpen newer
    rcases storeVersions_cases versions writes (toLex (id, begun)) with ⟨written, member, stored⟩ | ⟨missed, kept⟩
    · obtain rfl := Option.some.inj (stored.symm.trans found)
      rcases fit.kinds member with ⟨ends, _, _⟩ | ⟨_, rfl⟩
      · rw [isOpen] at ends
        cases ends
      · rcases storeVersions_cases versions writes (toLex (id, later)) with ⟨other, listed, _⟩ | ⟨_, same⟩
        · rcases fit.kinds listed with ⟨_, before, _⟩ | ⟨_, rfl⟩
          · exact before.trans fit.later.le
          · exact le_rfl
        · exact (within.past (same.symm.trans newer)).1.trans fit.later.le
    · have before := kept.symm.trans found
      rcases storeVersions_cases versions writes (toLex (id, later)) with ⟨other, listed, _⟩ | ⟨_, same⟩
      · exact absurd listed (not_written fit before isOpen missed later other)
      · exact within.newest before isOpen (same.symm.trans newer)

/-- An open version was opened by a write, or was open before and is not ended. -/
theorem opened_storeVersions (fit : WritesFit endOf versions through order writes) {id : Nat} {row : V}
    (opened : Opened endOf (KeyedStore.storeVersions versions writes) id row) :
    (endOf row = none ∧ (toLex (id, order), row) ∈ writes) ∨
      (Opened endOf versions id row ∧ ∀ begun closed, (toLex (id, begun), closed) ∉ writes) := by
  obtain ⟨begun, found, isOpen⟩ := opened
  rcases storeVersions_cases versions writes (toLex (id, begun)) with ⟨written, member, stored⟩ | ⟨missed, kept⟩
  · obtain rfl := Option.some.inj (stored.symm.trans found)
    rcases fit.kinds member with ⟨ends, _, _⟩ | ⟨_, rfl⟩
    · rw [isOpen] at ends
      cases ends
    · exact Or.inl ⟨isOpen, member⟩
  · have before := kept.symm.trans found
    exact Or.inr ⟨⟨begun, before, isOpen⟩, not_written fit before isOpen missed⟩

/-- A version that no write is about stays open. -/
theorem opened_kept (writes : List ((Nat ×ₗ Nat) × V)) {id : Nat} {row : V} (opened : Opened endOf versions id row)
    (unwritten : ∀ begun closed, (toLex (id, begun), closed) ∉ writes) :
    Opened endOf (KeyedStore.storeVersions versions writes) id row := by
  obtain ⟨begun, found, isOpen⟩ := opened
  rcases storeVersions_cases versions writes (toLex (id, begun)) with ⟨written, member, _⟩ | ⟨_, kept⟩
  · exact absurd member (unwritten begun written)
  · exact ⟨begun, kept.trans found, isOpen⟩

/-- A write that opens a version leaves the id with one that a write has opened. -/
theorem opened_written (fit : WritesFit endOf versions through order writes) {id : Nat} {row : V}
    (member : (toLex (id, order), row) ∈ writes) :
    ∃ opened, (toLex (id, order), opened) ∈ writes ∧ Opened endOf (KeyedStore.storeVersions versions writes) id opened := by
  rcases storeVersions_cases versions writes (toLex (id, order)) with ⟨written, listed, stored⟩ | ⟨missed, _⟩
  · rcases fit.kinds listed with ⟨_, before, _⟩ | ⟨isOpen, _⟩
    · exact absurd fit.later (Nat.not_lt_of_le before)
    · exact ⟨written, listed, order, stored, isOpen⟩
  · exact absurd member (missed row)

end VersionsWithin

/-! ## Reading -/

section Reading

variable {endOf} {versions : Versions V} {through : Nat} {view : Nat → V → V} {visible : V → Bool}

/-- The versions that are visible at a point, each as `view` shows it under its begin order. -/
def listVersions (versions : Versions V) (view : Nat → V → V) (visible : V → Bool) : List V :=
  (versions.entries.map fun entry => view (ofLex entry.1).2 entry.2).filter visible

/-- The newest version of an id that has begun by a point, where it is visible. -/
def loadVersion (versions : Versions V) (view : Nat → V → V) (visible : V → Bool) (id through : Nat) : Option V :=
  match (versions.scan fun key => (ofLex key).1 = id && (ofLex key).2 ≤ through).getLast? with
  | none => none
  | some (key, row) => if visible (view (ofLex key).2 row) then some (view (ofLex key).2 row) else none

/-- At the point that every version lies within, the visible versions are the open ones. -/
theorem mem_listVersions (within : VersionsWithin endOf versions through)
    (shows : ∀ order row, visible (view order row) = true ↔
      order ≤ through ∧ ∀ endOrder, endOf row = some endOrder → through < endOrder) {listed : V} :
    listed ∈ listVersions versions view visible ↔
      ∃ id order row, versions.get? (toLex (id, order)) = some row ∧ endOf row = none ∧ view order row = listed := by
  unfold listVersions
  constructor
  · intro member
    obtain ⟨inside, isVisible⟩ := List.mem_filter.mp member
    obtain ⟨⟨key, row⟩, stored, rfl⟩ := List.mem_map.mp inside
    have found : versions.get? (toLex ((ofLex key).1, (ofLex key).2)) = some row :=
      (OrderedMap.get?_eq_some_iff versions).mpr stored
    refine ⟨(ofLex key).1, (ofLex key).2, row, found, ?_, rfl⟩
    cases ended : endOf row with
    | none => rfl
    | some endOrder =>
      have later := ((shows _ _).mp isVisible).2 endOrder ended
      exact absurd later (Nat.not_lt_of_le ((within.past found).2 endOrder ended))
  · rintro ⟨id, order, row, found, isOpen, rfl⟩
    refine List.mem_filter.mpr ⟨List.mem_map.mpr ⟨(toLex (id, order), row), ?_, rfl⟩, ?_⟩
    · exact (OrderedMap.get?_eq_some_iff versions).mp found
    · refine (shows order row).mpr ⟨(within.past found).1, ?_⟩
      intro endOrder ended
      rw [isOpen] at ended
      cases ended

theorem loadVersion_open (within : VersionsWithin endOf versions through)
    (shows : ∀ order row, visible (view order row) = true ↔
      order ≤ through ∧ ∀ endOrder, endOf row = some endOrder → through < endOrder) {id : Nat} {loaded : V}
    (loads : loadVersion versions view visible id through = some loaded) :
    ∃ order row, versions.get? (toLex (id, order)) = some row ∧ endOf row = none ∧ view order row = loaded := by
  unfold loadVersion at loads
  split at loads
  · cases loads
  · rename_i key row newest
    split at loads
    · rename_i isVisible
      obtain ⟨stored, inRange⟩ := OrderedMap.mem_scan.mp (List.mem_of_getLast? newest)
      simp only [Bool.and_eq_true, decide_eq_true_eq] at inRange
      have found : versions.get? (toLex ((ofLex key).1, (ofLex key).2)) = some row := stored
      refine ⟨(ofLex key).2, row, inRange.1 ▸ found, ?_, Option.some.inj loads⟩
      cases ended : endOf row with
      | none => rfl
      | some endOrder =>
        have later := ((shows _ _).mp isVisible).2 endOrder ended
        exact absurd later (Nat.not_lt_of_le ((within.past found).2 endOrder ended))
    · cases loads

end Reading

end KeyedStore
