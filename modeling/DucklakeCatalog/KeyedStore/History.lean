import Mathlib.Data.List.Basic

/-! Histories of a store that several clients share. A client may base a commit
on any state the store has been in since the client looked at it. -/
namespace KeyedStore

/-- The states of a store, newest first. -/
structure History (S : Type) where
  current : S
  earlier : List S

namespace History

variable {S : Type}

def states (history : History S) : List S := history.current :: history.earlier

def start (state : S) : History S := ⟨state, []⟩

def extend (history : History S) (next : S) : History S := ⟨next, history.states⟩

@[simp] theorem current_extend (history : History S) (next : S) : (history.extend next).current = next := rfl

@[simp] theorem states_extend (history : History S) (next : S) :
    (history.extend next).states = next :: history.states := rfl

@[simp] theorem states_start (state : S) : (start state).states = [state] := rfl

theorem current_mem (history : History S) : history.current ∈ history.states := List.mem_cons_self

/-- Somewhere in the history the state was added to the earlier history. -/
def Took (history earlier : History S) (state : S) : Prop :=
  ∃ later, history.states = later ++ state :: earlier.states

inductive Reachable (initial : S → Prop) (step : History S → S → Prop) : History S → Prop
  | start {state : S} (isInitial : initial state) : Reachable initial step (start state)
  | step {history : History S} {next : S} (earlier : Reachable initial step history) (taken : step history next) :
      Reachable initial step (history.extend next)

variable {initial : S → Prop} {step : History S → S → Prop} {history : History S}

/-- A property that each step passes on from all states so far holds in every state. -/
theorem Reachable.invariant (holds : S → Prop) (atStart : ∀ state, initial state → holds state)
    (kept : ∀ history next, (∀ state ∈ history.states, holds state) → step history next → holds next)
    (reachable : Reachable initial step history) : ∀ state ∈ history.states, holds state := by
  induction reachable with
  | start isInitial =>
    intro state member
    rw [states_start, List.mem_singleton] at member
    exact member ▸ atStart _ isInitial
  | step earlier taken ih =>
    intro state member
    rcases List.mem_cons.mp member with rfl | before
    · exact kept _ _ ih taken
    · exact ih state before

/-- A preorder in which each step goes up relates every earlier state to the current one. -/
theorem Reachable.later (Later : S → S → Prop) (refl : ∀ state, Later state state)
    (trans : ∀ first second third, Later first second → Later second third → Later first third)
    (up : ∀ history next, Reachable initial step history → step history next → Later history.current next)
    (reachable : Reachable initial step history) : ∀ state ∈ history.states, Later state history.current := by
  induction reachable with
  | start isInitial =>
    intro state member
    rw [states_start, List.mem_singleton] at member
    exact member ▸ refl state
  | @step history next earlier taken ih =>
    intro state member
    rcases List.mem_cons.mp member with rfl | before
    · exact refl _
    · exact trans _ _ _ (ih state before) (up history next earlier taken)

theorem states_injective {left right : History S} (same : left.states = right.states) : left = right := by
  cases left
  cases right
  simpa [states] using same

theorem not_took_start (state : S) (earlier : History S) (taken : S) : ¬(start state).Took earlier taken := by
  rintro ⟨later, same⟩
  rw [states_start] at same
  have lengths := congrArg List.length same
  simp only [List.length_nil, List.length_append, List.length_cons, states] at lengths
  omega

theorem took_extend {history earlier : History S} {state taken : S} :
    (history.extend state).Took earlier taken ↔ (earlier = history ∧ taken = state) ∨ history.Took earlier taken := by
  constructor
  · rintro ⟨later, same⟩
    rw [states_extend] at same
    cases later with
    | nil =>
      simp only [List.nil_append, List.cons.injEq] at same
      exact Or.inl ⟨states_injective same.2.symm, same.1.symm⟩
    | cons newest later =>
      simp only [List.cons_append, List.cons.injEq] at same
      exact Or.inr ⟨later, same.2⟩
  · rintro (⟨rfl, rfl⟩ | ⟨later, same⟩)
    · exact ⟨[], rfl⟩
    · exact ⟨state :: later, by rw [states_extend, same, List.cons_append]⟩

/-- What led to each state of a history is itself reachable and took a step. -/
theorem Reachable.took {earlier : History S} {state : S} (reachable : Reachable initial step history)
    (took : history.Took earlier state) : Reachable initial step earlier ∧ step earlier state := by
  induction reachable with
  | start isInitial => exact absurd took (not_took_start _ _ _)
  | step before taken ih =>
    rcases took_extend.mp took with ⟨rfl, rfl⟩ | took
    · exact ⟨before, taken⟩
    · exact ih took

/-- A run whose steps all meet a condition is a run of the steps that meet it. -/
theorem Reachable.restrict (Condition : History S → S → Prop) (reachable : Reachable initial step history)
    (meets : ∀ earlier state, history.Took earlier state → Condition earlier state) :
    Reachable initial (fun history next => step history next ∧ Condition history next) history := by
  induction reachable with
  | start isInitial => exact Reachable.start isInitial
  | @step history next earlier taken ih =>
    have sooner := ih fun earlier state took => meets earlier state (took_extend.mpr (Or.inr took))
    exact sooner.step ⟨taken, meets history next (took_extend.mpr (Or.inl ⟨rfl, rfl⟩))⟩

theorem Took.mem {history earlier : History S} {state : S} (took : history.Took earlier state) :
    state ∈ history.states := by
  obtain ⟨later, same⟩ := took
  rw [same]
  exact List.mem_append_right later List.mem_cons_self

end History

end KeyedStore
