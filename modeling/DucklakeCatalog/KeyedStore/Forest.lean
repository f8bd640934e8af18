import Mathlib.Data.Set.Basic
import Mathlib.Logic.Relation

/-! Named places under parents. A place without a parent is a top one, and so is
one whose parent is the root, which need not be a place itself. -/
namespace KeyedStore

structure Place (Id Name : Type) where
  id : Id
  parent : Option Id
  name : Name
  deriving DecidableEq

variable {Id Name : Type} {root : Id} {places more : Set (Place Id Name)}

def ParentLink (places : Set (Place Id Name)) (child parent : Id) : Prop :=
  ∃ place ∈ places, place.id = child ∧ place.parent = some parent

/-- Links lead up to existing places or to the root, and siblings have different names. -/
structure Forest (root : Id) (places : Set (Place Id Name)) : Prop where
  acyclic : ∀ id, ¬Relation.TransGen (ParentLink places) id id
  rooted : ∀ place ∈ places, ∀ parent, place.parent = some parent →
    parent = root ∨ ∃ above ∈ places, above.id = parent
  siblings : ∀ left ∈ places, ∀ right ∈ places, left.parent = right.parent → left.name = right.name →
    left.id = right.id

/-- A link that a walk up to the root passes. -/
def PassesLink (root : Id) (link : Id → Id → Prop) (child parent : Id) : Prop := child ≠ root ∧ link child parent

/-- A path either passes the root or is one that a walk up to the root takes. -/
theorem passes_or_reaches_root (root : Id) {link : Id → Id → Prop} {start finish : Id}
    (path : Relation.ReflTransGen link start finish) :
    Relation.ReflTransGen (PassesLink root link) start finish ∨
      Relation.ReflTransGen (PassesLink root link) start root ∧ Relation.ReflTransGen link root finish := by
  induction path using Relation.ReflTransGen.head_induction_on with
  | refl => exact Or.inl Relation.ReflTransGen.refl
  | @head child parent step rest ih =>
    by_cases atRoot : child = root
    · subst atRoot
      exact Or.inr ⟨Relation.ReflTransGen.refl, rest.head step⟩
    · rcases ih with passes | ⟨up, onwards⟩
      · exact Or.inl (passes.head ⟨atRoot, step⟩)
      · exact Or.inr ⟨up.head ⟨atRoot, step⟩, onwards⟩

/-- Links have no cycle where no walk that stops at the root comes back to the place it started from. -/
theorem acyclic_of_walks (root : Id) {link : Id → Id → Prop}
    (walks : ∀ child parent, link child parent → ¬Relation.ReflTransGen (PassesLink root link) parent child) (id : Id) :
    ¬Relation.TransGen link id id := by
  intro cycle
  obtain ⟨parent, first, rest⟩ := Relation.TransGen.head'_iff.mp cycle
  rcases passes_or_reaches_root root rest with passes | ⟨up, onwards⟩
  · exact walks id parent first passes
  · -- The cycle runs through the root, so the walk from the root comes back to it.
    have rootCycle : Relation.TransGen link root root := by
      have back : Relation.ReflTransGen link parent root := 
        Relation.ReflTransGen.mono (fun _ _ step => step.2) _ _ up
      exact Relation.TransGen.trans_right onwards (Relation.TransGen.head' first back)
    obtain ⟨above, top, down⟩ := Relation.TransGen.head'_iff.mp rootCycle
    rcases passes_or_reaches_root root down with passes | ⟨passes, _⟩
    · exact walks root above top passes
    · exact walks root above top passes

namespace Forest

theorem empty : Forest root (∅ : Set (Place Id Name)) where
  acyclic := by
    intro id cycle
    obtain ⟨parent, ⟨place, member, _⟩, _⟩ := Relation.TransGen.head'_iff.mp cycle
    exact member
  rooted := by simp
  siblings := by simp

/-- Leaving out places that are no parents leaves a forest. -/
theorem subset (forest : Forest root more) (inside : places ⊆ more)
    (parents : ∀ place ∈ places, ∀ parent, place.parent = some parent → ∀ above ∈ more, above.id = parent →
      parent = root ∨ ∃ kept ∈ places, kept.id = parent) : Forest root places where
  acyclic := by
    intro id cycle
    have links : ∀ child parent, ParentLink places child parent → ParentLink more child parent := by
      rintro child parent ⟨place, member, linked⟩
      exact ⟨place, inside member, linked⟩
    exact forest.acyclic id (Relation.TransGen.mono links _ _ cycle)
  rooted := by
    intro place member parent linked
    rcases forest.rooted place (inside member) parent linked with isRoot | ⟨above, known, same⟩
    · exact Or.inl isRoot
    · exact parents place member parent linked above known same
  siblings := by
    intro left leftMember right rightMember sameParent sameName
    exact forest.siblings left (inside leftMember) right (inside rightMember) sameParent sameName

end Forest

end KeyedStore
