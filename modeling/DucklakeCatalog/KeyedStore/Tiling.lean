import Mathlib.Data.Prod.Lex
import Mathlib.Data.List.Sort
import Mathlib.Data.Set.Lattice
import Mathlib.Order.CompletePartialOrder
import Mathlib.Order.Interval.Set.Basic

/-! Half-open ranges that lie apart and together make up one range. -/
namespace KeyedStore

variable {α : Type} [LinearOrder α]

def span (range : α ×ₗ α) : Set α := Set.Ico (ofLex range).1 (ofLex range).2

structure Tiles (ranges : List (α ×ₗ α)) (start finish : α) : Prop where
  ordered : start ≤ finish
  apart : ranges.Pairwise fun left right => Disjoint (span left) (span right)
  covers : ∀ point, point ∈ Set.Ico start finish ↔ ∃ range ∈ ranges, point ∈ span range

namespace Tiles

variable {ranges rest : List (α ×ₗ α)} {first : α ×ₗ α} {start finish : α}

theorem nil_iff : Tiles ([] : List (α ×ₗ α)) start finish ↔ start = finish := by
  constructor
  · intro tiles
    apply le_antisymm tiles.ordered
    by_contra above
    obtain ⟨_, member, -⟩ := (tiles.covers start).mp ⟨le_rfl, not_le.mp above⟩
    cases member
  · rintro rfl
    exact ⟨le_rfl, List.Pairwise.nil, fun point => by simp⟩

/-- The least of the ranges comes first; the others make up what it leaves. -/
theorem cons_iff (least : ∀ range ∈ rest, first ≤ range) (nonempty : (ofLex first).1 < (ofLex first).2) :
    Tiles (first :: rest) start finish ↔ (ofLex first).1 = start ∧ Tiles rest (ofLex first).2 finish := by
  constructor
  · intro tiles
    obtain ⟨apartFirst, apart⟩ := List.pairwise_cons.mp tiles.apart
    have inside := (tiles.covers (ofLex first).1).mpr ⟨first, List.mem_cons_self, le_rfl, nonempty⟩
    have begins : (ofLex first).1 = start := by
      apply le_antisymm _ inside.1
      obtain ⟨range, member, covered⟩ := (tiles.covers start).mp ⟨le_rfl, inside.1.trans_lt inside.2⟩
      rcases List.mem_cons.mp member with rfl | later
      · exact covered.1
      · exact (Prod.Lex.monotone_fst _ _ (least range later)).trans covered.1
    refine ⟨begins, ?_, apart, ?_⟩
    · by_contra beyond
      have outside := (tiles.covers finish).mpr ⟨first, List.mem_cons_self, begins.le.trans tiles.ordered,
        not_le.mp beyond⟩
      exact lt_irrefl finish outside.2
    · intro point
      constructor
      · intro inRest
        have inAll : point ∈ Set.Ico start finish := ⟨begins ▸ nonempty.le.trans inRest.1, inRest.2⟩
        obtain ⟨range, member, covered⟩ := (tiles.covers point).mp inAll
        rcases List.mem_cons.mp member with rfl | later
        · exact absurd covered.2 (not_lt.mpr inRest.1)
        · exact ⟨range, later, covered⟩
      · rintro ⟨range, later, covered⟩
        have inAll := (tiles.covers point).mpr ⟨range, List.mem_cons_of_mem _ later, covered⟩
        refine ⟨not_lt.mp fun before => ?_, inAll.2⟩
        exact Set.disjoint_left.mp (apartFirst range later) ⟨begins ▸ inAll.1, before⟩ covered
  · rintro ⟨rfl, tiles⟩
    refine ⟨nonempty.le.trans tiles.ordered, List.pairwise_cons.mpr ⟨?_, tiles.apart⟩, ?_⟩
    · intro range later
      apply Set.disjoint_left.mpr
      intro point inFirst inRange
      have inRest := (tiles.covers point).mpr ⟨range, later, inRange⟩
      exact lt_irrefl point (inFirst.2.trans_le inRest.1)
    · intro point
      rw [List.exists_mem_cons_iff, ← tiles.covers point]
      constructor
      · intro inAll
        by_cases before : point < (ofLex first).2
        · exact .inl ⟨inAll.1, before⟩
        · exact .inr ⟨not_lt.mp before, inAll.2⟩
      · rintro (inFirst | inRest)
        · exact ⟨inFirst.1, inFirst.2.trans_le tiles.ordered⟩
        · exact ⟨nonempty.le.trans inRest.1, inRest.2⟩

end Tiles

end KeyedStore
