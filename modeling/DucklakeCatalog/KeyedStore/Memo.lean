import Mathlib.Data.List.Basic

/-! Caches: values remembered under keys, any of which may be forgotten again. -/
namespace KeyedStore

variable {K V : Type}

structure Memo (K V : Type) where
  find : K → Option V

namespace Memo

def empty : Memo K V := ⟨fun _ => none⟩

/-- Keep the entries that are wanted; an eviction keeps all but some. -/
def retain (memo : Memo K V) (keep : K → Bool) : Memo K V :=
  ⟨fun query => if keep query then memo.find query else none⟩

/-- Every entry fits its key. -/
def Holds (memo : Memo K V) (Fits : K → V → Prop) : Prop :=
  ∀ key value, memo.find key = some value → Fits key value

theorem Holds.empty (Fits : K → V → Prop) : (Memo.empty : Memo K V).Holds Fits := by
  intro key value found
  cases found

variable {memo : Memo K V} {Fits : K → V → Prop}

theorem Holds.retain (holds : memo.Holds Fits) (keep : K → Bool) :
    (memo.retain keep).Holds Fits := by
  intro key value found
  simp only [Memo.retain] at found
  split at found
  · exact holds key value found
  · cases found

theorem Holds.mono {Wider : K → V → Prop} (holds : memo.Holds Fits)
    (wider : ∀ key value, Fits key value → Wider key value) : memo.Holds Wider := fun key value found =>
  wider key value (holds key value found)

section Insert

variable [DecidableEq K]

def insert (memo : Memo K V) (key : K) (value : V) : Memo K V :=
  ⟨fun query => if query = key then some value else memo.find query⟩

theorem Holds.insert (holds : memo.Holds Fits) {key : K} {value : V}
    (fits : Fits key value) : (memo.insert key value).Holds Fits := by
  intro query remembered found
  simp only [Memo.insert] at found
  split at found
  · rename_i same
    rw [same, ← Option.some.inj found]
    exact fits
  · exact holds query remembered found

/-- The remembered value, or the loaded one, which is remembered from then on. -/
def findOrLoad (memo : Memo K V) (key : K) (loaded : V) : V × Memo K V :=
  match memo.find key with
  | some value => (value, memo)
  | none => (loaded, memo.insert key loaded)

theorem findOrLoad_fst (memo : Memo K V) (key : K) (loaded : V) :
    (memo.findOrLoad key loaded).1 = (memo.find key).getD loaded := by
  cases found : memo.find key <;> simp [findOrLoad, found]

theorem Holds.findOrLoad (holds : memo.Holds Fits) (key : K) (loaded : V) (fits : Fits key loaded) :
    Fits key (memo.findOrLoad key loaded).1 ∧ (memo.findOrLoad key loaded).2.Holds Fits := by
  cases found : memo.find key with
  | none => simpa only [Memo.findOrLoad, found] using ⟨fits, holds.insert fits⟩
  | some value => simpa only [Memo.findOrLoad, found] using ⟨holds key value found, holds⟩

end Insert

end Memo

end KeyedStore
