import DucklakeCatalog.KeyedStore.History
import DucklakeCatalog.KeyedStore.Memo

/-! Values that are written once: whatever a store holds under a key it held
whenever it had the key. A cache of such values needs no version. -/
namespace KeyedStore

variable {S K C V : Type} {initial : S → Prop} {step : History S → S → Prop} {view : S → K → Option V}
  {history : History S}

/-- Any two states that have a key hold the same value under it. -/
def WriteOnce (view : S → K → Option V) (history : History S) : Prop :=
  ∀ left ∈ history.states, ∀ right ∈ history.states, ∀ key first second, view left key = some first →
    view right key = some second → first = second

/-- A step writes values that some state has had, or under keys that no state has had. -/
def WritesOnce (view : S → K → Option V) (history : History S) (next : S) : Prop :=
  ∀ key value, view next key = some value →
    (∃ past ∈ history.states, view past key = some value) ∨ ∀ past ∈ history.states, view past key = none

theorem WriteOnce.extend (once : WriteOnce view history) {next : S} (writes : WritesOnce view history next) :
    WriteOnce view (history.extend next) := by
  have newest : ∀ past ∈ history.states, ∀ key first second, view next key = some first →
      view past key = some second → first = second := by
    intro past member key first second here there
    rcases writes key first here with ⟨other, listed, same⟩ | fresh
    · exact once other listed past member key first second same there
    · rw [fresh past member] at there
      cases there
  intro left leftMember right rightMember key first second here there
  rcases List.mem_cons.mp leftMember with rfl | leftEarlier
  · rcases List.mem_cons.mp rightMember with rfl | rightEarlier
    · exact Option.some.inj (here.symm.trans there)
    · exact newest right rightEarlier key first second here there
  · rcases List.mem_cons.mp rightMember with rfl | rightEarlier
    · exact (newest left leftEarlier key second first there here).symm
    · exact once left leftEarlier right rightEarlier key first second here there

theorem WriteOnce.start (view : S → K → Option V) (state : S) : WriteOnce view (History.start state) := by
  intro left leftMember right rightMember key first second here there
  rw [History.states_start, List.mem_singleton] at leftMember rightMember
  rw [leftMember] at here
  rw [rightMember] at there
  exact Option.some.inj (here.symm.trans there)

/-! ## Caches without versions -/

/-- A process remembers what it loaded from any state it has read and forgets what it likes, while the store goes on. A
cache entry names the key it is for. -/
inductive ReadThrough [DecidableEq C] (initial : S → Prop) (step : History S → S → Prop) (view : S → K → Option V)
    (name : C → K) : History S → Memo C V → Prop where
  | start {history : History S} (run : History.Reachable initial step history) :
      ReadThrough initial step view name history Memo.empty
  | commits {history : History S} {memo : Memo C V} {next : S} (reader : ReadThrough initial step view name history memo)
      (taken : step history next) : ReadThrough initial step view name (history.extend next) memo
  | remembers {history : History S} {memo : Memo C V} {past : S} {key : C} {value : V}
      (reader : ReadThrough initial step view name history memo) (read : past ∈ history.states)
      (loaded : view past (name key) = some value) : ReadThrough initial step view name history (memo.insert key value)
  | forgets {history : History S} {memo : Memo C V} (reader : ReadThrough initial step view name history memo)
      (keep : C → Bool) : ReadThrough initial step view name history (memo.retain keep)

namespace ReadThrough

variable [DecidableEq C] {name : C → K} {memo : Memo C V}

section

variable (reader : ReadThrough initial step view name history memo)

include reader

theorem run : History.Reachable initial step history := by
  induction reader with
  | start run => exact run
  | commits reader taken ih => exact ih.step taken
  | remembers reader read loaded ih => exact ih
  | forgets reader keep ih => exact ih

/-- Whatever is remembered was loaded from some state. -/
theorem holds :
    memo.Holds fun key value => ∃ past ∈ history.states, view past (name key) = some value := by
  induction reader with
  | start run => exact Memo.Holds.empty _
  | commits reader taken ih =>
    refine ih.mono fun key value ⟨past, member, loaded⟩ => ?_
    exact ⟨past, List.mem_cons_of_mem _ member, loaded⟩
  | @remembers history memo past key value reader read loaded ih => exact ih.insert ⟨past, read, loaded⟩
  | forgets reader keep ih => exact ih.retain keep

/-- Where values are written once, what is remembered is what every state that has the key holds. -/
theorem find_eq (once : WriteOnce view history) {key : C}
    {value stored : V} (found : memo.find key = some value) {state : S} (member : state ∈ history.states)
    (holds : view state (name key) = some stored) : value = stored := by
  obtain ⟨past, listed, loaded⟩ := reader.holds key value found
  exact once past listed state member (name key) value stored loaded holds

end

end ReadThrough

end KeyedStore
