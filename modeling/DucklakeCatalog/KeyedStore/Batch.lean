import DucklakeCatalog.KeyedStore.Fallible
import DucklakeCatalog.KeyedStore.OrderedMap

namespace KeyedStore

/-- Deletions and writes collected for one commit, each in staging order. -/
structure Staged (K : Type) (V : Type) where
  deletes : List K := []
  writes : List (K × V) := []

namespace Staged

variable {K V : Type}

instance : Inhabited (Staged K V) := ⟨{}⟩

def put (staged : Staged K V) (key : K) (value : V) : Staged K V :=
  { staged with writes := staged.writes ++ [(key, value)] }

def delete (staged : Staged K V) (key : K) : Staged K V :=
  { staged with deletes := staged.deletes ++ [key] }

def deleteAll (staged : Staged K V) (keys : List K) : Staged K V :=
  keys.foldl delete staged

def putAll (staged : Staged K V) (entries : List (K × V)) : Staged K V :=
  { staged with writes := staged.writes ++ entries }

/-- Whether some staged write names the key. -/
def Writes (staged : Staged K V) (key : K) : Prop :=
  ∃ value, (key, value) ∈ staged.writes

theorem writes_put {staged : Staged K V} {key query : K} {value : V} :
    (staged.put key value).Writes query ↔ query = key ∨ staged.Writes query := by
  constructor
  · rintro ⟨found, member⟩
    rcases List.mem_append.mp member with old | new
    · exact Or.inr ⟨found, old⟩
    · exact Or.inl (by simpa using congrArg Prod.fst (List.mem_singleton.mp new))
  · rintro (rfl | ⟨found, member⟩)
    · exact ⟨value, by simp [put]⟩
    · exact ⟨found, List.mem_append_left _ member⟩

@[simp] theorem writes_delete {staged : Staged K V} {key query : K} :
    (staged.delete key).Writes query ↔ staged.Writes query :=
  Iff.rfl

@[simp] theorem not_writes_empty {key : K} : ¬({} : Staged K V).Writes key := by
  rintro ⟨value, member⟩
  exact List.not_mem_nil member

theorem silent {staged : Staged K V} (empty : staged.writes = []) (key : K) : ¬staged.Writes key := by
  rintro ⟨value, member⟩
  simp [empty] at member

theorem lookup_eq_none [DecidableEq K] (staged : Staged K V) {key : K} (unwritten : ¬staged.Writes key) :
    staged.writes.reverse.lookup key = none := by
  refine List.lookup_eq_none_iff.mpr ?_
  intro entry member
  have different : key ≠ entry.1 := by
    rintro rfl
    exact unwritten ⟨entry.2, List.mem_reverse.mp member⟩
  simpa using different

theorem deleteAll_writes (staged : Staged K V) (keys : List K) :
    (staged.deleteAll keys).writes = staged.writes := by
  induction keys generalizing staged with
  | nil => rfl
  | cons key rest ih => exact ih (staged.delete key)

theorem deleteAll_deletes (staged : Staged K V) (keys : List K) :
    (staged.deleteAll keys).deletes = staged.deletes ++ keys := by
  induction keys generalizing staged with
  | nil => simp [deleteAll]
  | cons key rest ih =>
    have step := ih (staged.delete key)
    simpa [deleteAll, delete] using step

theorem deleteAll_append (staged : Staged K V) (first second : List K) :
    staged.deleteAll (first ++ second) = (staged.deleteAll first).deleteAll second :=
  List.foldl_append

/-- Steps that only stage deletions, taken one after another. -/
theorem foldl_deleteAll {σ ι : Type} (view : σ → Staged K V) (keysOf : ι → List K) {step : σ → ι → σ}
    (deletes : ∀ state item, view (step state item) = (view state).deleteAll (keysOf item)) (items : List ι)
    (start : σ) : view (items.foldl step start) = (view start).deleteAll (items.flatMap keysOf) := by
  induction items generalizing start with
  | nil => rfl
  | cons item rest ih => rw [List.foldl_cons, ih, deletes, List.flatMap_cons, deleteAll_append]

@[simp] theorem putAll_nil (staged : Staged K V) : staged.putAll [] = staged := by
  simp [putAll]

theorem putAll_append (staged : Staged K V) (first second : List (K × V)) :
    staged.putAll (first ++ second) = (staged.putAll first).putAll second := by
  simp [putAll]

/-- Steps that only stage writes, taken one after another. -/
theorem foldl_putAll {σ ι : Type} (view : σ → Staged K V) (entriesOf : ι → List (K × V)) {step : σ → ι → σ}
    (puts : ∀ state item, view (step state item) = (view state).putAll (entriesOf item)) (items : List ι)
    (start : σ) : view (items.foldl step start) = (view start).putAll (items.flatMap entriesOf) := by
  induction items generalizing start with
  | nil => simp
  | cons item rest ih => rw [List.foldl_cons, ih, puts, List.flatMap_cons, putAll_append]

/-- Steps that stage one write each. -/
theorem foldl_put {σ ι : Type} (view : σ → Staged K V) (entryOf : ι → K × V) {step : σ → ι → σ}
    (puts : ∀ state item, view (step state item) = (view state).put (entryOf item).1 (entryOf item).2) (items : List ι)
    (start : σ) : view (items.foldl step start) = (view start).putAll (items.map entryOf) := by
  rw [foldl_putAll view (fun item => [entryOf item]) puts, ← List.flatMap_pure_eq_map]
  rfl

theorem foldlM_putAll {ε σ ι : Type} (view : σ → Staged K V) (entriesOf : ι → List (K × V))
    {step : σ → ι → Except ε σ}
    (puts : ∀ state item next, step state item = .ok next → view next = (view state).putAll (entriesOf item))
    {items : List ι} {start finish : σ} (success : items.foldlM step start = .ok finish) :
    view finish = (view start).putAll (items.flatMap entriesOf) := by
  induction items generalizing start with
  | nil =>
    have same : start = finish := by simpa [pure, Except.pure] using success
    simp [same]
  | cons item rest ih =>
    rw [List.foldlM_cons, bind_eq_ok] at success
    obtain ⟨next, taken, success⟩ := success
    rw [ih success, puts start item next taken, List.flatMap_cons, putAll_append]

/-- Raise the staged value of a key instead of staging a second write for it. -/
def putMax [DecidableEq K] (staged : Staged K Nat) (key : K) (value : Nat) : Staged K Nat :=
  if staged.writes.any fun entry => entry.1 = key then
    { staged with writes := raiseFirst staged.writes }
  else
    staged.put key value
where
  raiseFirst : List (K × Nat) → List (K × Nat)
    | [] => []
    | entry :: rest =>
      if entry.1 = key then (entry.1, max entry.2 value) :: rest else entry :: raiseFirst rest

end Staged

namespace OrderedMap

variable {K V : Type} [LinearOrder K]

/-- Every staged deletion takes effect before the first staged write. -/
def commit (map : OrderedMap K V) (staged : Staged K V) : OrderedMap K V :=
  staged.writes.foldl (fun written entry => written.insert entry.1 entry.2)
    (staged.deletes.foldl erase map)

@[simp] theorem commit_empty (map : OrderedMap K V) : map.commit {} = map := rfl

@[simp] theorem commit_put (map : OrderedMap K V) (staged : Staged K V) (key : K) (value : V) :
    map.commit (staged.put key value) = (map.commit staged).insert key value := by
  simp [commit, Staged.put, List.foldl_append]

private theorem get?_foldl_erase (map : OrderedMap K V) (keys : List K) (query : K) :
    (keys.foldl erase map).get? query = if query ∈ keys then none else map.get? query := by
  induction keys generalizing map with
  | nil => simp
  | cons key rest ih =>
    rw [List.foldl_cons, ih, get?_erase]
    by_cases later : query ∈ rest
    · simp [later]
    · by_cases same : query = key
      · simp [same]
      · simp [later, same]

private theorem get?_foldl_insert (map : OrderedMap K V) (writes : List (K × V)) (query : K) :
    (writes.foldl (fun written entry => written.insert entry.1 entry.2) map).get? query =
      (writes.reverse.lookup query).or (map.get? query) := by
  induction writes generalizing map with
  | nil => simp
  | cons entry rest ih =>
    rw [List.foldl_cons, ih, get?_insert, List.reverse_cons, List.lookup_append]
    obtain ⟨key, value⟩ := entry
    cases rest.reverse.lookup query with
    | some written => simp
    | none =>
      by_cases same : query = key
      · simp [same]
      · simp [same, List.lookup_cons, beq_false_of_ne same]

section

variable (map : OrderedMap K V)

include map

/-- The last staged write wins, then a staged deletion, then the stored value. -/
theorem get?_commit (staged : Staged K V) (query : K) :
    (map.commit staged).get? query =
      (staged.writes.reverse.lookup query).or
        (if query ∈ staged.deletes then none else map.get? query) := by
  rw [commit, get?_foldl_insert, get?_foldl_erase]

/-- After staged writes a key holds one of them, or what it held before if none names it. -/
theorem get?_commit_putAll_cases (entries : List (K × V)) (query : K) :
    (∃ value, (query, value) ∈ entries ∧ (map.commit (({} : Staged K V).putAll entries)).get? query = some value) ∨
      ((∀ value, (query, value) ∉ entries) ∧
        (map.commit (({} : Staged K V).putAll entries)).get? query = map.get? query) := by
  have written : (map.commit (({} : Staged K V).putAll entries)).get? query =
      (entries.reverse.lookup query).or (map.get? query) := by
    rw [get?_commit]
    simp [Staged.putAll]
  rw [written]
  cases found : entries.reverse.lookup query with
  | none =>
    refine Or.inr ⟨?_, rfl⟩
    intro value member
    have different := List.lookup_eq_none_iff.mp found (query, value) (List.mem_reverse.mpr member)
    simp at different
  | some value =>
    obtain ⟨front, back, split, _⟩ := List.lookup_eq_some_iff.mp found
    refine Or.inl ⟨value, List.mem_reverse.mp ?_, rfl⟩
    rw [split]
    exact List.mem_append_right _ List.mem_cons_self

theorem get?_commit_deleteAll (keys : List K) {query : K} {value : V} :
    (map.commit (({} : Staged K V).deleteAll keys)).get? query = some value ↔
      map.get? query = some value ∧ query ∉ keys := by
  rw [get?_commit, Staged.deleteAll_writes, Staged.deleteAll_deletes]
  by_cases deleted : query ∈ keys
  · simp [deleted]
  · simp [deleted]

theorem get?_commit_delete (staged : Staged K V) (key query : K) :
    query ≠ key ∨ staged.Writes key →
      (map.commit (staged.delete key)).get? query = (map.commit staged).get? query := by
  intro kept
  rw [get?_commit, get?_commit]
  simp only [Staged.delete, List.mem_append, List.mem_singleton]
  by_cases same : query = key
  · subst same
    rcases kept with different | ⟨value, member⟩
    · exact absurd rfl different
    · cases found : staged.writes.reverse.lookup query with
      | some written => simp
      | none =>
        have absent := List.lookup_eq_none_iff.mp found (query, value) (List.mem_reverse.mpr member)
        simp at absent
  · simp [same]

theorem get?_commit_delete_self (staged : Staged K V) (key : K)
    (unwritten : ¬staged.Writes key) : (map.commit (staged.delete key)).get? key = none := by
  rw [get?_commit]
  simp [Staged.delete, staged.lookup_eq_none unwritten]

/-- A staged deletion is an erasure as long as the batch does not write the key. -/
theorem commit_delete (staged : Staged K V) (key : K) (unwritten : ¬staged.Writes key) :
    map.commit (staged.delete key) = (map.commit staged).erase key := by
  refine ext_get? ?_
  intro query
  rw [get?_erase]
  split
  · rename_i same
    rw [same]
    exact get?_commit_delete_self map staged key unwritten
  · rename_i different
    exact get?_commit_delete map staged key query (Or.inl different)

theorem get?_commit_deleteAll_of_not_mem (staged : Staged K V) {keys : List K} {query : K}
    (kept : query ∉ keys) : (map.commit (staged.deleteAll keys)).get? query = (map.commit staged).get? query := by
  rw [get?_commit, get?_commit, Staged.deleteAll_writes, Staged.deleteAll_deletes]
  simp [kept]

theorem get?_commit_deleteAll_of_mem (staged : Staged K V) {keys : List K} {query : K}
    (deleted : query ∈ keys) (unwritten : ¬staged.Writes query) :
    (map.commit (staged.deleteAll keys)).get? query = none := by
  rw [get?_commit, Staged.deleteAll_writes, Staged.deleteAll_deletes]
  simp [deleted, staged.lookup_eq_none unwritten]

theorem get?_commit_of_none (staged : Staged K V) {query : K} (missing : map.get? query = none)
    (unwritten : ¬staged.Writes query) : (map.commit staged).get? query = none := by
  rw [get?_commit, staged.lookup_eq_none unwritten, missing]
  simp

/-- A batch that neither writes nor deletes a key leaves it alone. -/
theorem get?_commit_of_untouched (staged : Staged K V) (key : K)
    (unwritten : ¬staged.Writes key) (undeleted : key ∉ staged.deletes) :
    (map.commit staged).get? key = map.get? key := by
  rw [get?_commit]
  simp [undeleted, staged.lookup_eq_none unwritten]

end

end OrderedMap

end KeyedStore
