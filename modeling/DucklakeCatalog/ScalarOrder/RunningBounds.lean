import Mathlib.Data.List.Perm.Basic
import Mathlib.Order.Lattice

/-! Bounds of a collection kept while its parts arrive one after another. -/
namespace ScalarOrder

/-- What a part says about the bounds of its values. -/
inductive Evidence (K : Type) where
  | silent
  | bounds (low high : K)
  | forget
  | refute
  deriving DecidableEq

/-- Bounds known so far, unless a part has made them unknowable. -/
inductive Extrema (K : Type) where
  | unknowable
  | known (range : Option (K × K))
  deriving DecidableEq

namespace Extrema

variable {K : Type} [LinearOrder K]

def widen (low high : K) : Option (K × K) → K × K
  | none => (low, high)
  | some range => (min range.1 low, max range.2 high)

def step : Extrema K → Evidence K → Extrema K
  | unknowable, _ => unknowable
  | known range, .silent => known range
  | known range, .bounds low high => known (some (widen low high range))
  | known _, .forget => known none
  | known _, .refute => unknowable

def run (start : Extrema K) (evidence : List (Evidence K)) : Extrema K := evidence.foldl step start

@[simp] theorem run_nil (start : Extrema K) : start.run [] = start := rfl

@[simp] theorem run_cons (start : Extrema K) (first : Evidence K) (rest : List (Evidence K)) :
    start.run (first :: rest) = (start.step first).run rest := rfl

theorem run_append (start : Extrema K) (first rest : List (Evidence K)) :
    start.run (first ++ rest) = (start.run first).run rest := List.foldl_append

theorem run_unknowable (evidence : List (Evidence K)) : (unknowable : Extrema K).run evidence = unknowable := by
  induction evidence with
  | nil => rfl
  | cons first rest ih => exact ih

variable {evidence : List (Evidence K)}

/-- One refuting part is enough, wherever it arrives. -/
theorem run_refuted (refuted : .refute ∈ evidence) (start : Extrema K) :
    start.run evidence = unknowable := by
  induction evidence generalizing start with
  | nil => cases refuted
  | cons first rest ih =>
    rcases List.mem_cons.mp refuted with same | later
    · rw [run_cons, ← same]
      cases start <;> exact run_unknowable rest
    · exact ih later _

theorem run_known (accepted : .refute ∉ evidence) (range : Option (K × K)) :
    ∃ last, (known range).run evidence = known last := by
  induction evidence generalizing range with
  | nil => exact ⟨range, rfl⟩
  | cons first rest ih =>
    have later : .refute ∉ rest := fun member => accepted (List.mem_cons_of_mem _ member)
    cases first with
    | silent => exact ih later range
    | bounds low high => exact ih later _
    | forget => exact ih later none
    | refute => exact absurd List.mem_cons_self accepted

/-- Only forgetting and bounds do not commute. -/
theorem step_comm {first second : Evidence K} (unlike : ∀ low high, ¬ (first = .forget ∧ second = .bounds low high) ∧
      ¬ (first = .bounds low high ∧ second = .forget)) (state : Extrema K) :
    (state.step first).step second = (state.step second).step first := by
  cases state with
  | unknowable => rfl
  | known range =>
    cases first with
    | silent
    | refute => cases second <;> rfl
    | forget =>
      cases second with
      | bounds low high => exact absurd ⟨rfl, rfl⟩ (unlike low high).1
      | silent | forget | refute => rfl
    | bounds low high =>
      cases second with
      | forget => exact absurd ⟨rfl, rfl⟩ (unlike low high).2
      | silent | refute => rfl
      | bounds otherLow otherHigh =>
        cases range with
        | none => simp only [step, widen, min_comm, max_comm]
        | some range => simp only [step, widen, min_assoc, max_assoc, min_comm low, max_comm high]

/-- Parts of which none forgets what another bounds may arrive in any order. -/
theorem run_perm {left right : List (Evidence K)} (reordered : left.Perm right)
    (unmixed : ∀ low high, ¬ (.forget ∈ left ∧ .bounds low high ∈ left)) (start : Extrema K) :
    start.run left = start.run right := by
  apply reordered.foldl_eq'
  intro first firstListed second secondListed state
  apply step_comm
  intro low high
  constructor
  · rintro ⟨rfl, rfl⟩
    exact unmixed low high ⟨firstListed, secondListed⟩
  · rintro ⟨rfl, rfl⟩
    exact unmixed low high ⟨secondListed, firstListed⟩

theorem run_last_forgets (accepted : .refute ∉ evidence) (range : Option (K × K)) :
    (known range).run (evidence ++ [.forget]) = known none := by
  obtain ⟨last, reached⟩ := run_known accepted range
  rw [run_append, reached]
  rfl

theorem run_last_bounds (accepted : .refute ∉ evidence) (range : Option (K × K))
    (low high : K) : ∃ last, (known range).run (evidence ++ [.bounds low high]) = known (some last) := by
  obtain ⟨last, reached⟩ := run_known accepted range
  rw [run_append, reached]
  exact ⟨_, rfl⟩

/-- Bounds that survive without being renewed were never forgotten. -/
theorem run_never_forgets {start : Extrema K} {range : K × K}
    (unmixed : ∀ low high, ¬ (.forget ∈ evidence ∧ .bounds low high ∈ evidence))
    (ends : start.run evidence = known (some range)) : .forget ∉ evidence := by
  intro forgets
  have accepted : .refute ∉ evidence := fun refuted => by simp [run_refuted refuted] at ends
  have reordered : evidence.Perm (evidence.erase .forget ++ [.forget]) :=
    (List.perm_cons_erase forgets).trans (List.perm_append_singleton _ _).symm
  rw [run_perm reordered unmixed] at ends
  cases start with
  | unknowable => simp [run_unknowable] at ends
  | known first =>
    rw [run_last_forgets (fun refuted => accepted (List.mem_of_mem_erase refuted))] at ends
    cases ends

/-- The bounds reached cover those of every part and those at the start. -/
theorem run_covers {start : Extrema K} {range : K × K} (remembered : .forget ∉ evidence)
    (ends : start.run evidence = known (some range)) :
    (∀ low high, .bounds low high ∈ evidence → range.1 ≤ low ∧ high ≤ range.2) ∧
      ∃ first, start = known first ∧ ∀ early, first = some early → range.1 ≤ early.1 ∧ early.2 ≤ range.2 := by
  induction evidence generalizing start with
  | nil =>
    constructor
    · intro low high member
      cases member
    · refine ⟨some range, ends, ?_⟩
      intro early same
      obtain rfl := Option.some.inj same
      exact ⟨le_rfl, le_rfl⟩
  | cons first rest ih =>
    obtain ⟨covered, reached, step, wide⟩ := ih (fun member => remembered (List.mem_cons_of_mem _ member)) ends
    cases start with
    | unknowable => cases step
    | known early =>
      cases first with
      | silent =>
        obtain rfl := Extrema.known.inj step
        exact ⟨fun low high member => covered low high (by simpa using member), early, rfl, wide⟩
      | forget => exact absurd List.mem_cons_self remembered
      | refute => cases step
      | bounds low high =>
        obtain rfl := Extrema.known.inj step
        obtain ⟨lower, upper⟩ := wide _ rfl
        refine ⟨?_, early, rfl, ?_⟩
        · intro otherLow otherHigh member
          rcases List.mem_cons.mp member with same | later
          · obtain ⟨rfl, rfl⟩ := Evidence.bounds.inj same
            cases early with
            | none => exact ⟨lower, upper⟩
            | some early => exact ⟨lower.trans (min_le_right _ _), (le_max_right _ _).trans upper⟩
          · exact covered otherLow otherHigh later
        · intro earlier same
          obtain rfl := same
          exact ⟨lower.trans (min_le_left _ _), (le_max_left _ _).trans upper⟩

/-- The bounds known at the end, if any. -/
def range : Extrema K → Option (K × K)
  | unknowable => none
  | known range => range

/-- The bounds reached are those of some part, or of the start. -/
theorem run_attains {first : Option (K × K)} {range : K × K}
    (ends : (known first).run evidence = known (some range)) :
    ((∃ high, .bounds range.1 high ∈ evidence) ∨ ∃ early, first = some early ∧ early.1 = range.1) ∧
      ((∃ low, .bounds low range.2 ∈ evidence) ∨ ∃ early, first = some early ∧ early.2 = range.2) := by
  induction evidence generalizing first with
  | nil =>
    obtain rfl := Extrema.known.inj ends
    exact ⟨Or.inr ⟨range, rfl, rfl⟩, Or.inr ⟨range, rfl, rfl⟩⟩
  | cons part rest ih =>
    cases part with
    | silent =>
      obtain ⟨lower, upper⟩ := ih ends
      exact ⟨lower.imp_left fun ⟨high, member⟩ => ⟨high, List.mem_cons_of_mem _ member⟩,
        upper.imp_left fun ⟨low, member⟩ => ⟨low, List.mem_cons_of_mem _ member⟩⟩
    | forget =>
      obtain ⟨lower, upper⟩ := @ih none ends
      constructor
      · rcases lower with ⟨high, member⟩ | ⟨early, impossible, _⟩
        · exact Or.inl ⟨high, List.mem_cons_of_mem _ member⟩
        · cases impossible
      · rcases upper with ⟨low, member⟩ | ⟨early, impossible, _⟩
        · exact Or.inl ⟨low, List.mem_cons_of_mem _ member⟩
        · cases impossible
    | refute =>
      have stuck : (unknowable : Extrema K).run rest = known (some range) := ends
      rw [run_unknowable] at stuck
      cases stuck
    | bounds low high =>
      obtain ⟨lower, upper⟩ := @ih (some (widen low high first)) ends
      constructor
      · rcases lower with ⟨other, member⟩ | ⟨early, same, reached⟩
        · exact Or.inl ⟨other, List.mem_cons_of_mem _ member⟩
        · obtain rfl := Option.some.inj same
          cases first with
          | none => exact Or.inl ⟨high, reached ▸ List.mem_cons_self⟩
          | some early =>
            rcases le_total early.1 low with below | above
            · exact Or.inr ⟨early, rfl, (min_eq_left below).symm.trans reached⟩
            · exact Or.inl ⟨high, ((min_eq_right above).symm.trans reached) ▸ List.mem_cons_self⟩
      · rcases upper with ⟨other, member⟩ | ⟨early, same, reached⟩
        · exact Or.inl ⟨other, List.mem_cons_of_mem _ member⟩
        · obtain rfl := Option.some.inj same
          cases first with
          | none => exact Or.inl ⟨low, reached ▸ List.mem_cons_self⟩
          | some early =>
            rcases le_total early.2 high with below | above
            · exact Or.inl ⟨low, ((max_eq_right below).symm.trans reached) ▸ List.mem_cons_self⟩
            · exact Or.inr ⟨early, rfl, (max_eq_left above).symm.trans reached⟩

/-- Bounds that nothing refutes or forgets are known at the end. -/
theorem run_bounded {low high : K} (bounds : .bounds low high ∈ evidence)
    (accepted : .refute ∉ evidence) (remembered : .forget ∉ evidence) (range : Option (K × K)) :
    ∃ last, (known range).run evidence = known (some last) := by
  have moved : evidence.Perm (evidence.erase (.bounds low high) ++ [.bounds low high]) :=
    (List.perm_cons_erase bounds).trans (List.perm_append_singleton _ _).symm
  rw [run_perm moved fun _ _ mixed => remembered mixed.1]
  exact run_last_bounds (fun refuted => accepted (List.mem_of_mem_erase refuted)) range low high

end Extrema

end ScalarOrder
