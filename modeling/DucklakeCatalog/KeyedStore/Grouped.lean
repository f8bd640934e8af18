import DucklakeCatalog.KeyedStore.OrderedMap

/-! Maps that gather what items of one key say, one item after another. -/
namespace KeyedStore.OrderedMap

variable {K V A : Type} [LinearOrder K]

/-- Change the value of the key, which starts as given. -/
def upsert (map : OrderedMap K V) (key : K) (start : V) (change : V → V) : OrderedMap K V :=
  map.insert key (change ((map.get? key).getD start))

def gather (keyOf : A → K) (start : K → V) (merge : V → A → V) (map : OrderedMap K V) (items : List A) :
    OrderedMap K V :=
  items.foldl (fun gathered item => gathered.upsert (keyOf item) (start (keyOf item)) (merge · item)) map

variable {keyOf : A → K} {start : K → V} {merge : V → A → V}

/-- What is gathered under a key are its own items, in their order. -/
theorem get?_gather (map : OrderedMap K V) (items : List A) (key : K) :
    (map.gather keyOf start merge items).get? key =
      if items.filter (fun item => decide (keyOf item = key)) = [] then map.get? key
      else some ((items.filter fun item => decide (keyOf item = key)).foldl merge ((map.get? key).getD (start key))) := by
  induction items generalizing map with
  | nil => rfl
  | cons item rest ih =>
    rw [gather, List.foldl_cons]
    have later := ih (map.upsert (keyOf item) (start (keyOf item)) (merge · item))
    rw [gather] at later
    rw [later]
    by_cases same : keyOf item = key
    · subst same
      rw [List.filter_cons_of_pos (by exact decide_eq_true rfl), if_neg (List.cons_ne_nil _ _), List.foldl_cons, upsert,
        get?_insert_self, Option.getD_some]
      by_cases last : rest.filter (fun other => decide (keyOf other = keyOf item)) = []
      · rw [if_pos last, last, List.foldl_nil]
      · rw [if_neg last]
    · rw [List.filter_cons_of_neg (by exact fun matched => same (of_decide_eq_true matched)), upsert,
        get?_insert_ne _ _ (Ne.symm same)]

theorem get?_gather_empty (items : List A) {key : K} {value : V} :
    ((empty : OrderedMap K V).gather keyOf start merge items).get? key = some value ↔
      (∃ item ∈ items, keyOf item = key) ∧
        value = (items.filter fun item => decide (keyOf item = key)).foldl merge (start key) := by
  rw [get?_gather]
  have present : items.filter (fun item => decide (keyOf item = key)) = [] ↔ ¬∃ item ∈ items, keyOf item = key := by
    rw [List.filter_eq_nil_iff]
    simp only [decide_eq_true_eq, not_exists, not_and]
  by_cases absent : items.filter (fun item => decide (keyOf item = key)) = []
  · rw [if_pos absent]
    constructor
    · intro found
      cases found
    · exact fun gathered => absurd gathered.1 (present.mp absent)
  · rw [if_neg absent, Option.some.injEq, get?_empty, Option.getD_none, eq_comm]
    exact (and_iff_right (not_not.mp (mt present.mpr absent))).symm

end KeyedStore.OrderedMap
