import DucklakeCatalog.KeyedStore.Retain
import DucklakeCatalog.Kv.Rows
import Mathlib.Data.List.Induction

/-! A cache that forgets the entry that was used least recently when it is full. -/
namespace DucklakeCatalog

open KeyedStore

structure LruCacheEntry (V : Type) where
  value : V
  sequence : Nat
  deriving DecidableEq

structure LruCache (K V : Type) [LinearOrder K] where
  capacity : Nat
  entries : OrderedMap K (LruCacheEntry V) := .empty
  recency : OrderedMap Nat K := .empty
  nextSequence : Nat := 0

namespace LruCache

variable {K V : Type} [LinearOrder K]

def new (capacity : Nat) : LruCache K V := { capacity }

def wrappingSucc (sequence : Nat) : Nat := (sequence + 1) % 2 ^ 64

/-- A drawn sequence is one that was not drawn before, as long as they do not wrap around. -/
def nextRecencySequence (cache : LruCache K V) : Nat × LruCache K V :=
  (cache.nextSequence, { cache with nextSequence := wrappingSucc cache.nextSequence })

def touch (cache : LruCache K V) (key : K) : LruCache K V :=
  let (sequence, cache) := cache.nextRecencySequence
  match cache.entries.get? key with
  | none => cache
  | some entry =>
    { cache with
      recency := (cache.recency.erase entry.sequence).insert sequence key
      entries := cache.entries.insert key { entry with sequence } }

def get (cache : LruCache K V) (key : K) : Option V × LruCache K V :=
  match cache.entries.get? key with
  | none => (none, cache)
  | some entry =>
    if cache.recency.entries.getLast?.map Prod.fst = some entry.sequence then (some entry.value, cache)
    else (some entry.value, cache.touch key)

/-- Entries go in the order of their sequences until the others fit; nothing stands for the panic of a cache that
has too many entries and no sequences. -/
def evictOverflow : Nat → LruCache K V → Option (LruCache K V)
  | 0, cache => if cache.entries.entries.length ≤ cache.capacity then some cache else none
  | fuel + 1, cache =>
    if cache.entries.entries.length ≤ cache.capacity then some cache
    else
      match cache.recency.entries with
      | [] => none
      | (sequence, oldest) :: _ =>
        evictOverflow fuel
          { cache with recency := cache.recency.erase sequence, entries := cache.entries.erase oldest }

def insert (cache : LruCache K V) (key : K) (value : V) : Option (LruCache K V) :=
  if cache.capacity = 0 then some cache
  else
    let (sequence, cache) := cache.nextRecencySequence
    let recency :=
      match cache.entries.get? key with
      | some previous => cache.recency.erase previous.sequence
      | none => cache.recency
    let cache := { cache with
      entries := cache.entries.insert key ⟨value, sequence⟩
      recency := recency.insert sequence key }
    cache.evictOverflow cache.recency.entries.length

def remove (cache : LruCache K V) (key : K) : LruCache K V :=
  match cache.entries.get? key with
  | none => cache
  | some entry =>
    { cache with entries := cache.entries.erase key, recency := cache.recency.erase entry.sequence }

def retain (cache : LruCache K V) (keep : K → V → Bool) : LruCache K V :=
  let entries := cache.entries.retain fun key entry => keep key entry.value
  { cache with entries, recency := cache.recency.retain fun _ key => (entries.get? key).isSome }

end LruCache

/-! ## Operations and their history -/

inductive LruOperation (K V : Type) where
  | get (key : K)
  | insert (key : K) (value : V)
  | remove (key : K)
  | retain (keep : K → V → Bool)

section

variable {K V : Type} [LinearOrder K]

/-- The key that an operation uses. -/
def LruOperation.uses : LruOperation K V → Option K
  | get key => some key
  | insert key _ => some key
  | remove _ => none
  | retain _ => none

def LruOperation.apply (cache : LruCache K V) : LruOperation K V → Option (LruCache K V)
  | get key => some (cache.get key).2
  | insert key value => cache.insert key value
  | remove key => some (cache.remove key)
  | retain keep => some (cache.retain keep)

/-- The cache after a history, if nothing panicked. -/
def LruCache.after (capacity : Nat) (history : List (LruOperation K V)) : Option (LruCache K V) :=
  history.foldlM LruOperation.apply (LruCache.new capacity)

/-- Since the key was used, the other one was. -/
def UsedLater (history : List (LruOperation K V)) (key other : K) : Prop :=
  ∃ before operation after, history = before ++ operation :: after ∧ operation.uses = some other ∧
    ∀ later ∈ operation :: after, later.uses ≠ some key

/-- What makes the cache forget an entry: it is removed, filtered out, or the least recently used one of a full cache
that gets a new key. -/
inductive Forgets (capacity : Nat) (history : List (LruOperation K V)) (key : K) (value : V) : LruOperation K V → Prop
  | removed : Forgets capacity history key value (.remove key)
  | filtered {keep : K → V → Bool} (unwanted : keep key value = false) :
      Forgets capacity history key value (.retain keep)
  | evicted {cache : LruCache K V} {other : K} (new : V) (reached : LruCache.after capacity history = some cache)
      (absent : cache.entries.get? other = none) (full : cache.entries.entries.length = capacity)
      (oldest : ∀ held, (cache.entries.get? held).isSome → held ≠ key → UsedLater history key held) :
      Forgets capacity history key value (.insert other new)

/-- The value is the last that was inserted for the key, and nothing has made the cache forget it. -/
def Remembered (capacity : Nat) (history : List (LruOperation K V)) (key : K) (value : V) : Prop :=
  ∃ before after, history = before ++ .insert key value :: after ∧
    ∀ between operation rest, after = between ++ operation :: rest →
      (∀ newer, operation ≠ .insert key newer) ∧
        ¬Forgets capacity (before ++ .insert key value :: between) key value operation

variable {other : K} {operation : LruOperation K V}

omit [LinearOrder K] in
theorem UsedLater.snoc {history : List (LruOperation K V)} {key : K} (used : UsedLater history key other)
    (unused : operation.uses ≠ some key) :
    UsedLater (history ++ [operation]) key other := by
  obtain ⟨before, last, after, rfl, isUse, silent⟩ := used
  refine ⟨before, last, after ++ [operation], by simp, isUse, ?_⟩
  intro later member
  rw [← List.cons_append, List.mem_append] at member
  rcases member with earlier | now
  · exact silent later earlier
  · rw [List.mem_singleton.mp now]
    exact unused

omit [LinearOrder K] in
theorem UsedLater.now {history : List (LruOperation K V)} {key : K}
    (isUse : operation.uses = some other) (different : other ≠ key) : UsedLater (history ++ [operation]) key other := by
  refine ⟨history, operation, [], rfl, isUse, ?_⟩
  intro later member
  rw [List.mem_singleton.mp member, isUse]
  exact fun same => different (Option.some.inj same)

omit [LinearOrder K] in
/-- Of two keys, at most one was used after the other. -/
theorem UsedLater.asymm {history : List (LruOperation K V)} {key : K} (used : UsedLater history key other)
    (again : UsedLater history other key) : False := by
  obtain ⟨before, operation, after, split, isUse, silent⟩ := used
  obtain ⟨first, earlier, rest, rfl, isEarlier, unused⟩ := again
  rcases List.append_eq_append_iff.mp split with ⟨between, _, tail⟩ | ⟨between, _, tail⟩
  · exact unused operation (tail ▸ List.mem_append_right _ List.mem_cons_self) isUse
  · exact silent earlier (tail ▸ List.mem_append_right _ List.mem_cons_self) isEarlier

theorem not_remembered_nil (capacity : Nat) (key : K) (value : V) : ¬Remembered capacity [] key value := by
  rintro ⟨before, after, empty, _⟩
  simp at empty

theorem remembered_snoc {capacity : Nat} {history : List (LruOperation K V)} {key : K} {value : V}
    :
    Remembered capacity (history ++ [operation]) key value ↔
      operation = .insert key value ∨ Remembered capacity history key value ∧
        (∀ newer, operation ≠ .insert key newer) ∧ ¬Forgets capacity history key value operation := by
  constructor
  · rintro ⟨before, after, split, kept⟩
    rcases after.eq_nil_or_concat with rfl | ⟨shorter, last, rfl⟩
    · obtain ⟨_, same⟩ := List.append_inj' split rfl
      exact Or.inl (List.singleton_inj.mp same)
    · rw [List.concat_eq_append, ← List.cons_append, ← List.append_assoc] at split
      obtain ⟨rfl, same⟩ := List.append_inj' split rfl
      obtain rfl := List.singleton_inj.mp same
      have now := kept shorter operation [] (by simp)
      refine Or.inr ⟨⟨before, shorter, rfl, ?_⟩, now⟩
      intro between earlier rest inside
      exact kept between earlier (rest ++ [operation]) (by simp [inside])
  · rintro (rfl | ⟨⟨before, after, rfl, kept⟩, now⟩)
    · exact ⟨history, [], rfl, by simp⟩
    · refine ⟨before, after ++ [operation], by simp, ?_⟩
      intro between earlier rest split
      rcases rest.eq_nil_or_concat with rfl | ⟨shorter, last, rfl⟩
      · obtain ⟨rfl, same⟩ := List.append_inj' split rfl
        rw [← List.singleton_inj.mp same]
        exact now
      · rw [List.concat_eq_append, ← List.cons_append, ← List.append_assoc] at split
        obtain ⟨inside, _⟩ := List.append_inj' split rfl
        exact kept between earlier shorter inside

/-! ## Entries and sequences -/

namespace LruCache

variable {cache next : LruCache K V} {history : List (LruOperation K V)} {key : K} {entry : LruCacheEntry V}

def find (cache : LruCache K V) (key : K) : Option V := (cache.entries.get? key).map LruCacheEntry.value

theorem get_fst (cache : LruCache K V) (key : K) : (cache.get key).1 = cache.find key := by
  rw [get, find]
  cases cache.entries.get? key with
  | none => rfl
  | some entry =>
    dsimp only
    split_ifs <;> rfl

/-- Every entry has a sequence of its own, drawn before, and sequences increase as the history uses the keys. -/
structure Sound (history : List (LruOperation K V)) (cache : LruCache K V) : Prop where
  indexes : Indexes LruCacheEntry.sequence cache.recency cache.entries
  drawn : cache.nextSequence ≤ history.length
  earlier : ∀ key entry, cache.entries.get? key = some entry → entry.sequence < cache.nextSequence
  ordered : ∀ key other entry otherEntry, cache.entries.get? key = some entry →
    cache.entries.get? other = some otherEntry → entry.sequence < otherEntry.sequence → UsedLater history key other

theorem new_sound (capacity : Nat) : Sound ([] : List (LruOperation K V)) (new capacity) where
  indexes := .empty
  drawn := Nat.le_refl 0
  earlier key entry found := by cases found
  ordered key other entry otherEntry found := by cases found

/-- Entries may go. -/
theorem Sound.subset (sound : Sound history cache)
    (indexes : Indexes LruCacheEntry.sequence next.recency next.entries)
    (same : next.nextSequence = cache.nextSequence)
    (within : ∀ key entry, next.entries.get? key = some entry → cache.entries.get? key = some entry) :
    Sound history next where
  indexes
  drawn := same ▸ sound.drawn
  earlier key entry found := same ▸ sound.earlier key entry (within key entry found)
  ordered key other entry otherEntry found foundOther below :=
    sound.ordered key other entry otherEntry (within key entry found) (within other otherEntry foundOther) below

/-- An operation that uses at most the newest key changes no order. -/
theorem Sound.silent (sound : Sound history cache)
    (newest : ∀ key other entry otherEntry, cache.entries.get? key = some entry →
      cache.entries.get? other = some otherEntry → entry.sequence < otherEntry.sequence →
      operation.uses ≠ some key) : Sound (history ++ [operation]) cache where
  indexes := sound.indexes
  drawn := sound.drawn.trans (by simp)
  earlier := sound.earlier
  ordered key other entry otherEntry found foundOther below :=
    (sound.ordered key other entry otherEntry found foundOther below).snoc
      (newest key other entry otherEntry found foundOther below)

/-- The entry of a key under the sequence that is drawn next. -/
def stored (cache : LruCache K V) (key : K) (value : V) : LruCache K V :=
  { cache with
    nextSequence := wrappingSucc cache.nextSequence
    entries := cache.entries.insert key ⟨value, cache.nextSequence⟩
    recency := (((cache.entries.get? key).elim cache.recency fun previous =>
      cache.recency.erase previous.sequence).insert cache.nextSequence key) }

theorem touch_eq (found : cache.entries.get? key = some entry) : cache.touch key = cache.stored key entry.value := by
  simp only [touch, nextRecencySequence, stored, found, Option.elim_some]

theorem insert_eq (positive : cache.capacity ≠ 0) (key : K) (value : V) :
    cache.insert key value =
      (cache.stored key value).evictOverflow (cache.stored key value).recency.entries.length := by
  rw [insert, if_neg positive]
  cases found : cache.entries.get? key with
  | none => simp only [nextRecencySequence, stored, found, Option.elim_none]
  | some previous => simp only [nextRecencySequence, stored, found, Option.elim_some]

theorem Sound.stored (sound : Sound history cache) (room : history.length + 1 < 2 ^ 64) (value : V)
    (isUse : operation.uses = some key) :
    Sound (history ++ [operation]) (cache.stored key value) := by
  have advanced : wrappingSucc cache.nextSequence = cache.nextSequence + 1 :=
    Nat.mod_eq_of_lt (by have drawn := sound.drawn; omega)
  have free : FreeFor LruCacheEntry.sequence cache.entries key cache.nextSequence := by
    intro other entry found same
    exact absurd (sound.earlier other entry found) (same ▸ Nat.lt_irrefl _)
  refine ⟨?_, ?_, ?_, ?_⟩
  · cases found : cache.entries.get? key with
    | none =>
      simp only [LruCache.stored, found, Option.elim_none]
      exact sound.indexes.create (⟨value, cache.nextSequence⟩ : LruCacheEntry V) found free
    | some previous =>
      simp only [LruCache.stored, found, Option.elim_some]
      exact sound.indexes.rename (⟨value, cache.nextSequence⟩ : LruCacheEntry V) found free
  · simp only [LruCache.stored, advanced, List.length_append, List.length_singleton]
    exact Nat.succ_le_succ sound.drawn
  · intro other entry found
    simp only [LruCache.stored, OrderedMap.get?_insert] at found
    simp only [LruCache.stored, advanced]
    split at found
    · rw [← Option.some.inj found]
      exact Nat.lt_succ_self _
    · exact Nat.lt_succ_of_lt (sound.earlier other entry found)
  · intro first second entry other found foundOther below
    simp only [LruCache.stored, OrderedMap.get?_insert] at found foundOther
    by_cases isNewer : second = key
    · by_cases same : first = key
      · rw [if_pos same] at found
        rw [if_pos isNewer] at foundOther
        rw [← Option.some.inj found, ← Option.some.inj foundOther] at below
        exact absurd below (Nat.lt_irrefl _)
      · rw [isNewer]
        exact UsedLater.now isUse (Ne.symm same)
    · rw [if_neg isNewer] at foundOther
      by_cases same : first = key
      · rw [if_pos same] at found
        rw [← Option.some.inj found] at below
        exact absurd (sound.earlier second other foundOther) (Nat.not_lt.mpr below.le)
      · rw [if_neg same] at found
        apply (sound.ordered first second entry other found foundOther below).snoc
        rw [isUse]
        exact fun equal => same (Option.some.inj equal).symm

/-- The newest sequence belongs to the key that was used last. -/
theorem Indexes.newest {recency : OrderedMap Nat K} {entries : OrderedMap K (LruCacheEntry V)}
    (indexes : Indexes LruCacheEntry.sequence recency entries) {sequence : Nat}
    (last : recency.entries.getLast?.map Prod.fst = some sequence) (found : entries.get? key = some entry) :
    entry.sequence ≤ sequence := by
  obtain ⟨⟨newest, owner⟩, isLast, rfl⟩ := Option.map_eq_some_iff.mp last
  have listed := (OrderedMap.get?_eq_some_iff recency).mp ((indexes entry.sequence key).mpr ⟨entry, found, rfl⟩)
  obtain ⟨front, split⟩ := List.getLast?_eq_some_iff.mp isLast
  have sorted := recency.sorted
  rw [split, KeySorted, List.pairwise_append] at sorted
  rw [split, List.mem_append] at listed
  rcases listed with before | atEnd
  · exact (sorted.2.2 _ before _ List.mem_cons_self).le
  · rw [List.mem_singleton] at atEnd
    exact (congrArg Prod.fst atEnd).le

theorem evictOverflow_fits (fits : cache.entries.entries.length ≤ cache.capacity) (fuel : Nat) :
    cache.evictOverflow fuel = some cache := by
  cases fuel with
  | zero
  | succ fuel => rw [evictOverflow, if_pos fits]

/-- The eviction of an overfull cache takes the entry with the oldest sequence. -/
theorem evictOverflow_spec (indexes : Indexes LruCacheEntry.sequence cache.recency cache.entries)
    (nearly : cache.entries.entries.length ≤ cache.capacity + 1) :
    ∃ next, cache.evictOverflow cache.recency.entries.length = some next ∧
      Indexes LruCacheEntry.sequence next.recency next.entries ∧ next.entries.entries.length ≤ cache.capacity ∧
      next.capacity = cache.capacity ∧ next.nextSequence = cache.nextSequence ∧
      (cache.entries.entries.length ≤ cache.capacity ∧ next.entries = cache.entries ∨
        cache.entries.entries.length = cache.capacity + 1 ∧
          ∃ oldest entry, cache.entries.get? oldest = some entry ∧ next.entries = cache.entries.erase oldest ∧
            ∀ key other, cache.entries.get? key = some other → entry.sequence ≤ other.sequence) := by
  have lengths := indexes.length_eq
  by_cases fits : cache.entries.entries.length ≤ cache.capacity
  · exact ⟨cache, evictOverflow_fits fits _, indexes, fits, rfl, rfl, Or.inl ⟨fits, rfl⟩⟩
  · have surplus : cache.entries.entries.length = cache.capacity + 1 := by omega
    obtain ⟨⟨sequence, oldest⟩, rest, shape⟩ := List.exists_cons_of_length_pos
      (l := cache.recency.entries) (by omega)
    have sorted := cache.recency.sorted
    rw [shape, KeySorted, List.pairwise_cons] at sorted
    have owned : cache.recency.get? sequence = some oldest :=
      (OrderedMap.get?_eq_some_iff _).mpr (shape ▸ List.mem_cons_self)
    obtain ⟨entry, found, rfl⟩ := (indexes sequence oldest).mp owned
    have shorter : (cache.entries.erase oldest).entries.length ≤ cache.capacity := by
      have one := OrderedMap.length_erase_of_some found
      omega
    refine ⟨{ cache with recency := cache.recency.erase entry.sequence, entries := cache.entries.erase oldest }, ?_,
      indexes.drop found, shorter, rfl, rfl, Or.inr ⟨surplus, oldest, entry, found, rfl, ?_⟩⟩
    · rw [shape, List.length_cons, evictOverflow, if_neg fits]
      simp only [shape]
      exact evictOverflow_fits shorter _
    · intro key other foundOther
      have listed := (OrderedMap.get?_eq_some_iff _).mp ((indexes other.sequence key).mpr ⟨other, foundOther, rfl⟩)
      rw [shape] at listed
      rcases List.mem_cons.mp listed with same | later
      · exact (congrArg Prod.fst same).ge
      · exact (sorted.1 _ later).le

/-! ## What an operation does -/

/-- What is found after an operation was inserted by it, or was found before and is not forgotten. -/
def Finds (history : List (LruOperation K V)) (cache : LruCache K V) (operation : LruOperation K V)
    (next : LruCache K V) : Prop :=
  ∀ key value, next.find key = some value ↔ operation = .insert key value ∨
    cache.find key = some value ∧ (∀ newer, operation ≠ .insert key newer) ∧
      ¬Forgets cache.capacity history key value operation

structure Steps (history : List (LruOperation K V)) (cache : LruCache K V) (operation : LruOperation K V)
    (next : LruCache K V) : Prop where
  applied : operation.apply cache = some next
  sound : Sound (history ++ [operation]) next
  bounded : next.entries.entries.length ≤ next.capacity
  capacity : next.capacity = cache.capacity
  finds : cache.capacity ≠ 0 → Finds history cache operation next

theorem finds_of_uninserted (uninserted : ∀ key value, operation ≠ .insert key value)
    (kept : ∀ key value, next.find key = some value ↔
      cache.find key = some value ∧ ¬Forgets cache.capacity history key value operation) :
    Finds history cache operation next := by
  intro key value
  rw [kept]
  constructor
  · exact fun ⟨found, remembered⟩ => Or.inr ⟨found, uninserted key, remembered⟩
  · rintro (inserted | ⟨found, _, remembered⟩)
    · exact absurd inserted (uninserted key value)
    · exact ⟨found, remembered⟩

theorem find_stored (cache : LruCache K V) (key : K) (value : V) (query : K) :
    (cache.stored key value).find query = if query = key then some value else cache.find query := by
  rw [find, find, stored, OrderedMap.get?_insert]
  split_ifs <;> rfl

theorem find_touch (found : cache.entries.get? key = some entry) (query : K) :
    (cache.touch key).find query = cache.find query := by
  rw [touch_eq found, find_stored]
  split_ifs with same
  · rw [same, find, found, Option.map_some]
  · rfl

theorem Sound.get (sound : Sound history cache) (bounded : cache.entries.entries.length ≤ cache.capacity)
    (room : history.length + 1 < 2 ^ 64) (key : K) : Steps history cache (.get key) (cache.get key).2 := by
  have finds : (∀ query, (cache.get key).2.find query = cache.find query) → cache.capacity ≠ 0 →
      Finds history cache (.get key) (cache.get key).2 := by
    intro same _
    refine finds_of_uninserted (fun _ _ inserted => by cases inserted) ?_
    intro query value
    rw [same, and_iff_left]
    intro forgets
    cases forgets
  cases found : cache.entries.get? key with
  | none =>
    have same : (cache.get key).2 = cache := by simp only [LruCache.get, found]
    refine ⟨rfl, ?_, ?_, ?_, finds fun _ => by rw [same]⟩
    · rw [same]
      apply sound.silent
      intro held other heldEntry _ heldFound _ _ isUse
      obtain rfl := Option.some.inj isUse
      rw [found] at heldFound
      cases heldFound
    · rw [same]
      exact bounded
    · rw [same]
  | some entry =>
    by_cases last : cache.recency.entries.getLast?.map Prod.fst = some entry.sequence
    · have same : (cache.get key).2 = cache := by simp only [LruCache.get, found, if_pos last]
      refine ⟨rfl, ?_, ?_, ?_, finds fun _ => by rw [same]⟩
      · rw [same]
        apply sound.silent
        intro held other heldEntry otherEntry heldFound otherFound below isUse
        obtain rfl := Option.some.inj isUse
        obtain rfl := Option.some.inj (found.symm.trans heldFound)
        exact absurd below (Nat.not_lt.mpr (Indexes.newest sound.indexes last otherFound))
      · rw [same]
        exact bounded
      · rw [same]
    · have touched : (cache.get key).2 = cache.stored key entry.value := by
        rw [← touch_eq found]
        simp only [LruCache.get, found, if_neg last]
      refine ⟨rfl, ?_, ?_, ?_, finds fun query => ?_⟩
      · rw [touched]
        exact sound.stored room entry.value rfl
      · rw [touched]
        exact (OrderedMap.length_insert_of_some found _).trans_le bounded
      · rw [touched]
        rfl
      · rw [touched, ← touch_eq found]
        exact find_touch found query

theorem Sound.remove (sound : Sound history cache) (bounded : cache.entries.entries.length ≤ cache.capacity) (key : K) :
    Steps history cache (.remove key) (cache.remove key) := by
  have silent : Sound (history ++ [.remove key]) cache := by
    apply sound.silent
    intro _ _ _ _ _ _ _ isUse
    cases isUse
  have finds : (∀ query, (cache.remove key).find query = if query = key then none else cache.find query) →
      cache.capacity ≠ 0 → Finds history cache (.remove key) (cache.remove key) := by
    intro removed _
    refine finds_of_uninserted (fun _ _ inserted => by cases inserted) ?_
    intro query value
    rw [removed]
    by_cases same : query = key
    · rw [if_pos same, same]
      constructor
      · intro impossible
        cases impossible
      · exact fun ⟨_, remembered⟩ => absurd .removed remembered
    · rw [if_neg same, and_iff_left]
      intro forgets
      cases forgets
      exact same rfl
  cases found : cache.entries.get? key with
  | none =>
    have same : cache.remove key = cache := by simp only [LruCache.remove, found]
    rw [same] at finds ⊢
    refine ⟨congrArg some same, silent, bounded, rfl, finds fun query => ?_⟩
    split_ifs with isKey
    · rw [isKey, find, found, Option.map_none]
    · rfl
  | some entry =>
    have removed : cache.remove key =
        { cache with entries := cache.entries.erase key, recency := cache.recency.erase entry.sequence } := by
      simp only [LruCache.remove, found]
    rw [removed] at finds ⊢
    refine ⟨congrArg some removed, ?_, ?_, rfl, finds fun query => ?_⟩
    · refine silent.subset (sound.indexes.drop found) rfl ?_
      intro query other foundOther
      rw [OrderedMap.get?_erase] at foundOther
      split_ifs at foundOther
      exact foundOther
    · have one := OrderedMap.length_erase_of_some found
      dsimp only
      omega
    · rw [find, OrderedMap.get?_erase, find]
      split_ifs <;> rfl

theorem Sound.retain (sound : Sound history cache) (bounded : cache.entries.entries.length ≤ cache.capacity)
    (keep : K → V → Bool) : Steps history cache (.retain keep) (cache.retain keep) where
  applied := rfl
  sound := by
    have silent : Sound (history ++ [.retain keep]) cache := by
      apply sound.silent
      intro _ _ _ _ _ _ _ isUse
      cases isUse
    refine silent.subset (sound.indexes.retain fun key entry => keep key entry.value) rfl ?_
    intro key entry found
    exact (OrderedMap.get?_retain_eq_some.mp found).1
  bounded := (OrderedMap.length_retain_le _ _).trans bounded
  capacity := rfl
  finds _ := by
    refine finds_of_uninserted (fun _ _ inserted => by cases inserted) ?_
    intro key value
    rw [find, Option.map_eq_some_iff, find, Option.map_eq_some_iff]
    constructor
    · rintro ⟨entry, found, rfl⟩
      obtain ⟨stored, wanted⟩ := OrderedMap.get?_retain_eq_some.mp found
      refine ⟨⟨entry, stored, rfl⟩, ?_⟩
      rintro (_ | unwanted)
      rw [wanted] at unwanted
      cases unwanted
    · rintro ⟨⟨entry, found, rfl⟩, remembered⟩
      refine ⟨entry, OrderedMap.get?_retain_eq_some.mpr ⟨found, ?_⟩, rfl⟩
      by_contra unwanted
      exact remembered (.filtered (Bool.eq_false_iff.mpr unwanted))

theorem find_of_no_room (bounded : cache.entries.entries.length ≤ cache.capacity) (noRoom : cache.capacity = 0)
    (key : K) : cache.entries.get? key = none := by
  have empty := List.eq_nil_of_length_eq_zero (Nat.le_zero.mp (noRoom ▸ bounded))
  rw [OrderedMap.get?, empty]
  rfl

/-- A new key in a full cache drives out the key that was used least recently, and nothing else does. -/
theorem Sound.forgets_iff (sound : Sound history cache) (reached : after cache.capacity history = some cache)
    {oldest query : K} {oldestEntry : LruCacheEntry V} (absent : cache.entries.get? key = none)
    (full : cache.entries.entries.length = cache.capacity) (found : cache.entries.get? oldest = some oldestEntry)
    (least : ∀ key other, cache.entries.get? key = some other → oldestEntry.sequence ≤ other.sequence)
    {held : LruCacheEntry V} (heldFound : cache.entries.get? query = some held) (old new : V) :
    Forgets cache.capacity history query old (.insert key new) ↔ query = oldest := by
  have later : ∀ other, (cache.entries.get? other).isSome → other ≠ oldest → UsedLater history oldest other := by
    intro other present different
    obtain ⟨entry, otherFound⟩ := Option.isSome_iff_exists.mp present
    apply sound.ordered oldest other oldestEntry entry found otherFound
    apply lt_of_le_of_ne (least other entry otherFound)
    exact fun same => different (sound.indexes.unique otherFound found same.symm)
  constructor
  · intro forgets
    cases forgets with
    | evicted _ again _ _ leastUsed =>
      obtain rfl := Option.some.inj (reached.symm.trans again)
      by_contra different
      exact (leastUsed oldest (found ▸ rfl) (Ne.symm different)).asymm (later query (heldFound ▸ rfl) different)
  · rintro rfl
    exact .evicted new reached absent full later

/-- An inserted value is found; what else is found depends on whether the insertion forgets it. -/
theorem finds_of_inserted {value : V}
    (kept : ∀ query old, query ≠ key → (next.find query = some old ↔
      cache.find query = some old ∧ ¬Forgets cache.capacity history query old (.insert key value)))
    (stores : next.find key = some value) : Finds history cache (.insert key value) next := by
  intro query old
  by_cases isKey : query = key
  · subst isKey
    rw [stores, Option.some.injEq]
    constructor
    · rintro rfl
      exact Or.inl rfl
    · rintro (same | ⟨_, uninserted, _⟩)
      · cases same
        rfl
      · exact absurd rfl (uninserted value)
  · rw [kept query old isKey]
    constructor
    · rintro ⟨found, remembered⟩
      refine Or.inr ⟨found, ?_, remembered⟩
      intro newer same
      cases same
      exact isKey rfl
    · rintro (same | ⟨found, _, remembered⟩)
      · cases same
        exact absurd rfl isKey
      · exact ⟨found, remembered⟩

theorem Sound.insert_finds (sound : Sound history cache) (bounded : cache.entries.entries.length ≤ cache.capacity)
    (positive : cache.capacity ≠ 0) (reached : after cache.capacity history = some cache) (key : K) (value : V)
    (outcome : (cache.stored key value).entries.entries.length ≤ cache.capacity ∧
        next.entries = (cache.stored key value).entries ∨
      (cache.stored key value).entries.entries.length = cache.capacity + 1 ∧
        ∃ oldest entry, (cache.stored key value).entries.get? oldest = some entry ∧
          next.entries = (cache.stored key value).entries.erase oldest ∧
          ∀ held other, (cache.stored key value).entries.get? held = some other → entry.sequence ≤ other.sequence) :
    Finds history cache (.insert key value) next := by
  have findStored := find_stored cache key value
  rcases outcome with ⟨fits, same⟩ | ⟨surplus, oldest, entry, found, same, least⟩
  · have finds : ∀ query, next.find query = if query = key then some value else cache.find query := by
      intro query
      rw [find, same, ← findStored]
      rfl
    refine finds_of_inserted ?_ (by rw [finds, if_pos rfl])
    intro query old different
    rw [finds, if_neg different, and_iff_left]
    intro forgets
    cases forgets with
    | evicted _ again absent full _ =>
      obtain rfl := Option.some.inj (reached.symm.trans again)
      have longer : (cache.stored key value).entries.entries.length = cache.entries.entries.length + 1 :=
        OrderedMap.length_insert_of_none absent _
      omega
  · have absent : cache.entries.get? key = none := by
      cases present : cache.entries.get? key with
      | none => rfl
      | some entry =>
        have longer : (cache.stored key value).entries.entries.length = cache.entries.entries.length :=
          OrderedMap.length_insert_of_some present _
        omega
    have full : cache.entries.entries.length = cache.capacity := by
      have longer : (cache.stored key value).entries.entries.length = cache.entries.entries.length + 1 :=
        OrderedMap.length_insert_of_none absent _
      omega
    have storedOther : ∀ query other, cache.entries.get? query = some other →
        (cache.stored key value).entries.get? query = some other := by
      intro query other present
      have different : query ≠ key := by
        rintro rfl
        rw [absent] at present
        cases present
      exact (OrderedMap.get?_insert_ne _ _ different).trans present
    -- Another entry is older than the new one, so the new one stays.
    have notNew : oldest ≠ key := by
      rintro rfl
      obtain ⟨⟨other, otherEntry⟩, listed⟩ := List.exists_mem_of_length_pos
        (l := cache.entries.entries) (by omega)
      have present := (OrderedMap.get?_eq_some_iff cache.entries).mpr listed
      have older := sound.earlier other otherEntry present
      have isNew : (⟨value, cache.nextSequence⟩ : LruCacheEntry V) = entry :=
        Option.some.inj ((OrderedMap.get?_insert_self _ _ _).symm.trans found)
      have notOlder := least other otherEntry (storedOther other otherEntry present)
      rw [← isNew] at notOlder
      exact absurd older (Nat.not_lt.mpr notOlder)
    have oldestFound : cache.entries.get? oldest = some entry :=
      (OrderedMap.get?_insert_ne _ _ notNew).symm.trans found
    have finds : ∀ query, next.find query =
        if query = oldest then none else if query = key then some value else cache.find query := by
      intro query
      rw [find, same, OrderedMap.get?_erase, ← findStored]
      split_ifs <;> rfl
    refine finds_of_inserted ?_ (by rw [finds, if_neg (Ne.symm notNew), if_pos rfl])
    intro query old different
    rw [finds, if_neg different]
    constructor
    · intro isFound
      split_ifs at isFound with isOldest
      refine ⟨isFound, ?_⟩
      obtain ⟨held, heldFound, _⟩ := Option.map_eq_some_iff.mp isFound
      rw [sound.forgets_iff reached absent full oldestFound (fun _ _ => (least _ _ <| storedOther _ _ ·)) heldFound]
      exact isOldest
    · rintro ⟨isFound, remembered⟩
      obtain ⟨held, heldFound, _⟩ := Option.map_eq_some_iff.mp isFound
      rw [sound.forgets_iff reached absent full oldestFound (fun _ _ => (least _ _ <| storedOther _ _ ·)) heldFound]
        at remembered
      rw [if_neg remembered]
      exact isFound

theorem Sound.insert (sound : Sound history cache) (bounded : cache.entries.entries.length ≤ cache.capacity)
    (room : history.length + 1 < 2 ^ 64) (reached : after cache.capacity history = some cache) (key : K) (value : V) :
    ∃ next, Steps history cache (.insert key value) next := by
  by_cases positive : cache.capacity = 0
  · refine ⟨cache, if_pos positive, ?_, bounded, rfl, fun some => absurd positive some⟩
    apply sound.silent
    intro held _ _ _ found
    rw [find_of_no_room bounded positive held] at found
    cases found
  · have newSound : Sound (history ++ [.insert key value]) (cache.stored key value) := sound.stored room value rfl
    have nearly : (cache.stored key value).entries.entries.length ≤ cache.capacity + 1 := by
      cases found : cache.entries.get? key with
      | none => exact (OrderedMap.length_insert_of_none found _).trans_le (Nat.succ_le_succ bounded)
      | some entry => exact (OrderedMap.length_insert_of_some found _).trans_le (bounded.trans (Nat.le_succ _))
    obtain ⟨next, evicts, indexes, fits, sameCapacity, sameNext, outcome⟩ := evictOverflow_spec newSound.indexes nearly
    refine ⟨next, (insert_eq positive key value).trans evicts, ?_, sameCapacity ▸ fits, sameCapacity,
      fun _ => sound.insert_finds bounded positive reached key value outcome⟩
    apply newSound.subset indexes sameNext
    intro query entry found
    rcases outcome with ⟨_, same⟩ | ⟨_, oldest, _, _, same, _⟩
    · exact same ▸ found
    · rw [same, OrderedMap.get?_erase] at found
      split_ifs at found
      exact found

/-! ## Histories -/

theorem Sound.apply (sound : Sound history cache) (bounded : cache.entries.entries.length ≤ cache.capacity)
    (room : history.length + 1 < 2 ^ 64) (reached : after cache.capacity history = some cache)
    (operation : LruOperation K V) : ∃ next, Steps history cache operation next := by
  cases operation with
  | get key => exact ⟨_, sound.get bounded room key⟩
  | insert key value => exact sound.insert bounded room reached key value
  | remove key => exact ⟨_, sound.remove bounded key⟩
  | retain keep => exact ⟨_, sound.retain bounded keep⟩

/-- After a history without wrapping the cache is sound, and holds exactly what it should remember. -/
theorem after_sound (capacity : Nat) {history : List (LruOperation K V)} (fewer : history.length < 2 ^ 64) :
    ∃ cache, after capacity history = some cache ∧ Sound history cache ∧ cache.capacity = capacity ∧
      cache.entries.entries.length ≤ capacity ∧
      (capacity ≠ 0 → ∀ key value, cache.find key = some value ↔ Remembered capacity history key value) := by
  induction history using List.reverseRecOn with
  | nil =>
    refine ⟨new capacity, rfl, new_sound capacity, rfl, Nat.zero_le _, fun _ key value => ?_⟩
    constructor
    · intro found
      cases found
    · exact fun remembered => absurd remembered (not_remembered_nil capacity key value)
  | append_singleton history operation ih =>
    rw [List.length_append, List.length_singleton] at fewer
    obtain ⟨cache, reached, sound, rfl, bounded, remembers⟩ := ih (Nat.lt_of_succ_lt fewer)
    obtain ⟨next, steps⟩ := sound.apply bounded fewer reached operation
    refine ⟨next, ?_, steps.sound, steps.capacity, steps.capacity ▸ steps.bounded, fun positive key value => ?_⟩
    · rw [after, List.foldlM_append]
      have earlier : List.foldlM LruOperation.apply (new cache.capacity) history = some cache := reached
      rw [earlier, Option.bind_eq_bind, Option.bind_some, List.foldlM_cons, steps.applied]
      rfl
    · rw [steps.finds positive key value, remembered_snoc, remembers positive]

end LruCache

end

end DucklakeCatalog
