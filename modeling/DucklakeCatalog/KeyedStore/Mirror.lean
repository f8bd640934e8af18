import DucklakeCatalog.KeyedStore.OrderedMap

/-! Copies of stored rows under further keys. A copy is read together with its
key, and the view fixes what a copy has to share with the stored row. -/
namespace KeyedStore

variable {I K R V β : Type} [LinearOrder I] [LinearOrder K]

/-- Every copy shows what the row stored under its id shows. -/
def Mirrors (idOf : R → I) (view : R → β) (read : K → V → R) (rows : OrderedMap I R) (copies : OrderedMap K V) :
    Prop :=
  ∀ key value, copies.get? key = some value →
    ∃ row, rows.get? (idOf (read key value)) = some row ∧ view row = view (read key value)

namespace Mirrors

variable {idOf : R → I} {view : R → β} {read : K → V → R} {rows : OrderedMap I R} {copies : OrderedMap K V}

theorem empty : Mirrors idOf view read rows (.empty : OrderedMap K V) := by
  intro key value found
  simp at found

section

variable (mirrors : Mirrors idOf view read rows copies)

include mirrors

/-- A row that has no copy may change. -/
theorem replace {id : I} (row : R)
    (uncopied : ∀ key value, copies.get? key = some value → idOf (read key value) ≠ id) :
    Mirrors idOf view read (rows.insert id row) copies := by
  intro key value found
  obtain ⟨stored, present, same⟩ := mirrors key value found
  refine ⟨stored, ?_, same⟩
  rw [OrderedMap.get?_insert, if_neg (uncopied key value found)]
  exact present

/-- A new row has no copy yet. -/
theorem create {id : I} (fresh : rows.get? id = none) (row : R) :
    Mirrors idOf view read (rows.insert id row) copies := by
  refine mirrors.replace row ?_
  rintro key value found rfl
  obtain ⟨stored, present, _⟩ := mirrors key value found
  rw [fresh] at present
  simp at present

theorem put {key : K} {value : V} {row : R}
    (present : rows.get? (idOf (read key value)) = some row) (same : view row = view (read key value)) :
    Mirrors idOf view read rows (copies.insert key value) := by
  intro query found taken
  rw [OrderedMap.get?_insert] at taken
  split at taken
  · rename_i here
    obtain rfl := Option.some.inj taken
    subst here
    exact ⟨row, present, same⟩
  · exact mirrors query found taken

theorem erase (key : K) :
    Mirrors idOf view read rows (copies.erase key) := by
  intro query found taken
  rw [OrderedMap.get?_erase] at taken
  split at taken
  · simp at taken
  · exact mirrors query found taken

theorem eraseAll (keys : List K) :
    Mirrors idOf view read rows (keys.foldl OrderedMap.erase copies) := by
  induction keys generalizing copies with
  | nil => exact mirrors
  | cons key rest ih => exact ih (mirrors.erase key)

/-- A row changes together with its only copy. -/
theorem move {id : I} {row : R} {key : K} {value : V}
    (only : ∀ query found, copies.get? query = some found → idOf (read query found) = id → query = key)
    (copied : idOf (read key value) = id) (same : view row = view (read key value)) :
    Mirrors idOf view read (rows.insert id row) (copies.insert key value) := by
  have cleared : Mirrors idOf view read (rows.insert id row) (copies.erase key) := by
    refine (mirrors.erase key).replace row ?_
    intro query found taken equal
    rw [OrderedMap.get?_erase] at taken
    split at taken
    · simp at taken
    · rename_i elsewhere
      exact elsewhere (only query found taken equal)
  intro query found taken
  rw [OrderedMap.get?_insert] at taken
  split at taken
  · rename_i here
    obtain rfl := Option.some.inj taken
    subst here
    refine ⟨row, ?_, same⟩
    rw [copied, OrderedMap.get?_insert, if_pos rfl]
  · rename_i elsewhere
    refine cleared query found ?_
    rw [OrderedMap.get?_erase, if_neg elsewhere]
    exact taken

end

end Mirrors

theorem get?_eraseAll (copies : OrderedMap K V) (keys : List K) (query : K) :
    (keys.foldl OrderedMap.erase copies).get? query = if query ∈ keys then none else copies.get? query := by
  induction keys generalizing copies with
  | nil => simp
  | cons key rest ih =>
    rw [List.foldl_cons, ih, OrderedMap.get?_erase]
    by_cases later : query ∈ rest
    · simp [later]
    · by_cases here : query = key
      · simp [here]
      · simp [later, here]

end KeyedStore
