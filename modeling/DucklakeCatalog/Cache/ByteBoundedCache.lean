import DucklakeCatalog.KeyedStore.Retain
import DucklakeCatalog.Kv.Rows
import Mathlib.Data.List.Induction
import Mathlib.Data.List.MinMax

/-! A cache whose entries weigh together at most so many bytes; pinned entries are not driven out. -/
namespace DucklakeCatalog

open KeyedStore

structure ByteBoundedCacheEntry (V : Type) where
  value : V
  weight : Nat
  generation : Nat
  pinned : Bool
  deriving DecidableEq

structure ByteBoundedCache (K V : Type) [LinearOrder K] where
  maxBytes : Nat
  entries : OrderedMap K (ByteBoundedCacheEntry V) := .empty
  nextGeneration : Nat := 0
  totalBytes : Nat := 0

inductive ByteOperation (K V : Type) where
  | get (key : K)
  | contains (key : K)
  | insertShared (key : K) (value : V) (weight : Nat) (pinned : Bool)
  | retain (keep : K → Bool)

variable {K V : Type} [LinearOrder K]

namespace ByteBoundedCache

def new (maxBytes : Nat) : ByteBoundedCache K V := { maxBytes }

/-- Move on to the next generation, and the entry of the key with it. -/
def renew (cache : ByteBoundedCache K V) (key : K) : ByteBoundedCache K V :=
  let generation := (cache.nextGeneration + 1) % 2 ^ 64
  let cache := { cache with nextGeneration := generation }
  match cache.entries.get? key with
  | none => cache
  | some entry => { cache with entries := cache.entries.insert key { entry with generation } }

def get (cache : ByteBoundedCache K V) (key : K) : Option V × ByteBoundedCache K V :=
  ((cache.entries.get? key).map ByteBoundedCacheEntry.value, cache.renew key)

def contains (cache : ByteBoundedCache K V) (key : K) : Bool × ByteBoundedCache K V :=
  ((cache.entries.get? key).isSome, cache.renew key)

def evictOldestUnpinned (cache : ByteBoundedCache K V) (retainedKey : K) : Option (ByteBoundedCache K V) := do
  let oldest ← (cache.entries.entries.filter fun entry => !entry.2.pinned && decide (entry.1 ≠ retainedKey)).argmin
    fun entry => entry.2.generation
  let entry ← cache.entries.get? oldest.1
  return { cache with entries := cache.entries.erase oldest.1, totalBytes := cache.totalBytes - entry.weight }

/-- Drive out entries until the weight fits in the place of the previous one; the answer is whether it does. Nothing
stands for a loop that needs more turns. -/
def makeRoom (key : K) (previousWeight weight : Nat) :
    Nat → ByteBoundedCache K V → Option (Bool × ByteBoundedCache K V)
  | 0, _ => none
  | fuel + 1, cache =>
    if cache.maxBytes < saturatingAdd (cache.totalBytes - previousWeight) weight then
      match cache.evictOldestUnpinned key with
      | none => some (false, cache)
      | some next => makeRoom key previousWeight weight fuel next
    else some (true, cache)

def place (cache : ByteBoundedCache K V) (key : K) (value : V) (weight : Nat) (pinned : Bool) :
    ByteBoundedCache K V :=
  let cache :=
    match cache.entries.get? key with
    | none => cache
    | some previous =>
      { cache with entries := cache.entries.erase key, totalBytes := cache.totalBytes - previous.weight }
  let generation := (cache.nextGeneration + 1) % 2 ^ 64
  { cache with
    nextGeneration := generation
    totalBytes := saturatingAdd cache.totalBytes weight
    entries := cache.entries.insert key { value, weight, generation, pinned } }

def insertShared (cache : ByteBoundedCache K V) (key : K) (value : V) (weight : Nat) (pinned : Bool) :
    Option (Bool × ByteBoundedCache K V) :=
  if cache.maxBytes < weight then some (false, cache)
  else do
    let previousWeight := (cache.entries.get? key).elim 0 ByteBoundedCacheEntry.weight
    let (fits, cache) ← cache.makeRoom key previousWeight weight (cache.entries.entries.length + 1)
    return if fits then (true, cache.place key value weight pinned) else (false, cache)

def drop (cache : ByteBoundedCache K V) (key : K) : ByteBoundedCache K V :=
  match cache.entries.get? key with
  | none => cache
  | some entry => { cache with entries := cache.entries.erase key, totalBytes := cache.totalBytes - entry.weight }

def retain (cache : ByteBoundedCache K V) (keep : K → Bool) : ByteBoundedCache K V :=
  ((cache.entries.entries.map Prod.fst).filter fun key => !keep key).foldl drop cache

end ByteBoundedCache

/-- The next cache, and whether the operation was accepted; only insertions are ever rejected. -/
def ByteOperation.apply (cache : ByteBoundedCache K V) : ByteOperation K V → Option (Bool × ByteBoundedCache K V)
  | get key => some (true, (cache.get key).2)
  | contains key => some (true, (cache.contains key).2)
  | insertShared key value weight pinned => cache.insertShared key value weight pinned
  | retain keep => some (true, cache.retain keep)

def ByteBoundedCache.after (maxBytes : Nat) (history : List (ByteOperation K V)) : Option (ByteBoundedCache K V) :=
  history.foldlM (fun cache operation => (operation.apply cache).map Prod.snd) (ByteBoundedCache.new maxBytes)

/-- The keys whose pinned entries an accepted operation may take. -/
def ByteOperation.takes (accepted : Bool) : ByteOperation K V → K → Prop
  | get _, _ => False
  | contains _, _ => False
  | insertShared key _ _ _, other => other = key ∧ accepted = true
  | retain keep, other => keep other = false

/-! ## Accounting -/

namespace ByteBoundedCache

variable {cache next last : ByteBoundedCache K V} {key : K} {entry : ByteBoundedCacheEntry V} {except other : K → Prop}

/-- The total is within the bound, and is what the entries weigh unless it may have been cut off at the largest
number. -/
structure Balanced (cache : ByteBoundedCache K V) : Prop where
  bounded : cache.totalBytes ≤ cache.maxBytes
  sum : cache.maxBytes < u64Max → cache.totalBytes = cache.entries.total ByteBoundedCacheEntry.weight

/-- The pinned entries are still there, but for their generation. -/
def KeepsPinned (cache next : ByteBoundedCache K V) (except : K → Prop) : Prop :=
  ∀ key entry, cache.entries.get? key = some entry → entry.pinned = true → ¬except key →
    ∃ kept, next.entries.get? key = some kept ∧ kept.pinned = true ∧ kept.value = entry.value ∧
      kept.weight = entry.weight

/-- What an operation does to a balanced cache. -/
structure Moves (cache next : ByteBoundedCache K V) (except : K → Prop) : Prop where
  balanced : cache.Balanced → next.Balanced
  maxBytes : next.maxBytes = cache.maxBytes
  pinned : KeepsPinned cache next except

theorem Moves.refl (cache : ByteBoundedCache K V) (except : K → Prop) : Moves cache cache except where
  balanced := id
  maxBytes := rfl
  pinned := fun _ entry found pinned _ => ⟨entry, found, pinned, rfl, rfl⟩

theorem Moves.trans (first : Moves cache next except) (second : Moves next last except) :
    Moves cache last except where
  balanced := fun balanced => second.balanced (first.balanced balanced)
  maxBytes := second.maxBytes.trans first.maxBytes
  pinned := by
    intro key entry found pinned other
    obtain ⟨middle, middleFound, middlePinned, value, weight⟩ := first.pinned key entry found pinned other
    obtain ⟨kept, keptFound, keptPinned, keptValue, keptWeight⟩ :=
      second.pinned key middle middleFound middlePinned other
    exact ⟨kept, keptFound, keptPinned, keptValue.trans value, keptWeight.trans weight⟩

theorem Moves.weaken (moves : Moves cache next except) (weaker : ∀ key, except key → other key) :
    Moves cache next other where
  balanced := moves.balanced
  maxBytes := moves.maxBytes
  pinned := fun key entry found pinned apart =>
    moves.pinned key entry found pinned fun excepted => apart (weaker key excepted)

theorem renew_eq (found : cache.entries.get? key = some entry) :
    cache.renew key = { cache with
      nextGeneration := (cache.nextGeneration + 1) % 2 ^ 64
      entries := cache.entries.insert key { entry with generation := (cache.nextGeneration + 1) % 2 ^ 64 } } := by
  simp only [renew, found]

theorem renew_moves (cache : ByteBoundedCache K V) (key : K) (except : K → Prop) :
    Moves cache (cache.renew key) except := by
  cases found : cache.entries.get? key with
  | none =>
    simp only [renew, found]
    exact ⟨fun balanced => ⟨balanced.bounded, balanced.sum⟩, rfl, (Moves.refl cache except).pinned⟩
  | some entry =>
    rw [renew_eq found]
    refine ⟨fun balanced => ⟨balanced.bounded, fun below => ?_⟩, rfl, ?_⟩
    · refine (balanced.sum below).trans (OrderedMap.total_insert_of_same ByteBoundedCacheEntry.weight found ?_).symm
      rfl
    · intro held heldEntry heldFound pinned _
      by_cases same : held = key
      · subst same
        obtain rfl := Option.some.inj (heldFound.symm.trans found)
        exact ⟨_, OrderedMap.get?_insert_self _ _ _, pinned, rfl, rfl⟩
      · exact ⟨heldEntry, (OrderedMap.get?_insert_ne _ _ same).trans heldFound, pinned, rfl, rfl⟩

/-- The cache without an entry, which goes with its weight. -/
def without (cache : ByteBoundedCache K V) (key : K) (entry : ByteBoundedCacheEntry V) : ByteBoundedCache K V :=
  { cache with entries := cache.entries.erase key, totalBytes := cache.totalBytes - entry.weight }

theorem get?_without_of_ne {query : K} (different : query ≠ key) :
    (cache.without key entry).entries.get? query = cache.entries.get? query :=
  (OrderedMap.get?_erase _ _ _).trans (if_neg different)

theorem without_moves (found : cache.entries.get? key = some entry) (excepted : entry.pinned = true → except key) :
    Moves cache (cache.without key entry) except where
  balanced := by
    intro balanced
    refine ⟨(Nat.sub_le _ _).trans balanced.bounded, fun below => ?_⟩
    have split := OrderedMap.total_erase ByteBoundedCacheEntry.weight found
    change cache.totalBytes - entry.weight = (cache.entries.erase key).total ByteBoundedCacheEntry.weight
    rw [balanced.sum below, ← split]
    exact Nat.add_sub_cancel_left _ _
  maxBytes := rfl
  pinned := by
    intro held heldEntry heldFound pinned apart
    have different : held ≠ key := by
      rintro rfl
      obtain rfl := Option.some.inj (heldFound.symm.trans found)
      exact apart (excepted pinned)
    exact ⟨heldEntry, (get?_without_of_ne different).trans heldFound, pinned, rfl, rfl⟩

theorem drop_moves (cache : ByteBoundedCache K V) (excepted : except key) : Moves cache (cache.drop key) except := by
  cases found : cache.entries.get? key with
  | none =>
    simp only [drop, found]
    exact Moves.refl cache except
  | some entry =>
    simp only [drop, found]
    exact without_moves found fun _ => excepted

theorem retain_moves (cache : ByteBoundedCache K V) (keep : K → Bool) :
    Moves cache (cache.retain keep) (fun key => keep key = false) := by
  have dropped : ∀ (keys : List K) (cache : ByteBoundedCache K V), (∀ key ∈ keys, keep key = false) →
      Moves cache (keys.foldl drop cache) (fun key => keep key = false) := by
    intro keys
    induction keys with
    | nil => exact fun cache _ => Moves.refl cache _
    | cons key keys ih =>
      intro cache unwanted
      apply (drop_moves cache (unwanted key List.mem_cons_self)).trans
      exact ih _ fun other member => unwanted other (List.mem_cons_of_mem key member)
  apply dropped
  intro key member
  simpa using (List.mem_filter.mp member).2

/-! ## Insertion -/

/-- What eviction takes is not pinned, and not the key that is to be stored. -/
theorem evictOldestUnpinned_eq (evicts : cache.evictOldestUnpinned key = some next) :
    ∃ oldest entry, cache.entries.get? oldest = some entry ∧ entry.pinned = false ∧ oldest ≠ key ∧
      next = cache.without oldest entry := by
  simp only [evictOldestUnpinned, bind, Option.bind_eq_some_iff, pure, Option.some.injEq] at evicts
  obtain ⟨⟨oldest, _⟩, least, entry, found, rfl⟩ := evicts
  obtain ⟨listed, unpinned⟩ := List.mem_filter.mp (List.argmin_mem least)
  obtain rfl := Option.some.inj (((OrderedMap.get?_eq_some_iff _).mpr listed).symm.trans found)
  simp only [Bool.and_eq_true, Bool.not_eq_true', decide_eq_true_eq] at unpinned
  exact ⟨oldest, _, found, unpinned.1, unpinned.2, rfl⟩

/-- Every turn of the loop takes an entry, so it ends; it leaves the entry of the key, and what is pinned. -/
theorem makeRoom_spec (key : K) (previousWeight weight : Nat) (fuel : Nat) (cache : ByteBoundedCache K V)
    (enough : cache.entries.entries.length < fuel) :
    ∃ fits next, cache.makeRoom key previousWeight weight fuel = some (fits, next) ∧
      Moves cache next (fun _ => False) ∧ next.entries.get? key = cache.entries.get? key ∧
      (fits = true → saturatingAdd (next.totalBytes - previousWeight) weight ≤ next.maxBytes) := by
  induction fuel generalizing cache with
  | zero => exact absurd enough (Nat.not_lt_zero _)
  | succ fuel ih =>
    by_cases full : cache.maxBytes < saturatingAdd (cache.totalBytes - previousWeight) weight
    · cases evicts : cache.evictOldestUnpinned key with
      | none =>
        refine ⟨false, cache, ?_, Moves.refl cache _, rfl, fun fits => absurd fits Bool.false_ne_true⟩
        rw [makeRoom, if_pos full, evicts]
      | some evicted =>
        obtain ⟨oldest, entry, found, unpinned, different, rfl⟩ := evictOldestUnpinned_eq evicts
        have shorter : (cache.without oldest entry).entries.entries.length + 1 = cache.entries.entries.length :=
          OrderedMap.length_erase_of_some found
        obtain ⟨fits, next, rooms, moves, same, room⟩ := ih (cache.without oldest entry) (by omega)
        refine ⟨fits, next, ?_, (without_moves found ?_).trans moves, ?_, room⟩
        · rw [makeRoom, if_pos full, evicts]
          exact rooms
        · intro pinned
          exact Bool.false_ne_true (unpinned.symm.trans pinned)
        · exact same.trans (get?_without_of_ne different.symm)
    · refine ⟨true, cache, ?_, Moves.refl cache _, rfl, fun _ => Nat.not_lt.mp full⟩
      rw [makeRoom, if_neg full]

/-- The cache that the new entry of the key goes into. -/
def vacated (cache : ByteBoundedCache K V) (key : K) : ByteBoundedCache K V := cache.drop key

theorem vacated_spec (cache : ByteBoundedCache K V) (key : K) :
    (cache.vacated key).entries.get? key = none ∧ (cache.vacated key).totalBytes =
      cache.totalBytes - (cache.entries.get? key).elim 0 ByteBoundedCacheEntry.weight := by
  cases found : cache.entries.get? key with
  | none =>
    simp only [vacated, drop, found]
    exact ⟨trivial, rfl⟩
  | some entry =>
    simp only [vacated, drop, found]
    exact ⟨(OrderedMap.get?_erase _ _ _).trans (if_pos rfl), rfl⟩

theorem place_eq (cache : ByteBoundedCache K V) (key : K) (value : V) (weight : Nat) (pinned : Bool) :
    cache.place key value weight pinned = { cache.vacated key with
      nextGeneration := (cache.nextGeneration + 1) % 2 ^ 64
      totalBytes := saturatingAdd (cache.vacated key).totalBytes weight
      entries := (cache.vacated key).entries.insert key
        ⟨value, weight, (cache.nextGeneration + 1) % 2 ^ 64, pinned⟩ } := by
  cases found : cache.entries.get? key with
  | none
  | some entry => simp only [place, vacated, drop, found]

theorem place_moves (cache : ByteBoundedCache K V) (key : K) (value : V) (weight : Nat) (pinned : Bool)
    (room : saturatingAdd (cache.totalBytes - (cache.entries.get? key).elim 0 ByteBoundedCacheEntry.weight) weight ≤
      cache.maxBytes) :
    Moves cache (cache.place key value weight pinned) (fun other => other = key) := by
  obtain ⟨vacant, remaining⟩ := vacated_spec cache key
  have vacates : Moves cache (cache.vacated key) (fun other => other = key) := drop_moves cache rfl
  rw [← remaining] at room
  rw [place_eq]
  refine vacates.trans ⟨?_, rfl, ?_⟩
  · intro balanced
    refine ⟨vacates.maxBytes ▸ room, fun below => ?_⟩
    have whole : saturatingAdd (cache.vacated key).totalBytes weight = (cache.vacated key).totalBytes + weight := by
      have small : saturatingAdd (cache.vacated key).totalBytes weight < u64Max :=
        (vacates.maxBytes ▸ room).trans_lt below
      rw [saturatingAdd] at small ⊢
      omega
    change saturatingAdd (cache.vacated key).totalBytes weight = _
    rw [whole, balanced.sum below, OrderedMap.total_insert_of_none _ vacant, Nat.add_comm]
  · intro held entry found isPinned different
    exact ⟨entry, (OrderedMap.get?_insert_ne _ _ different).trans found, isPinned, rfl, rfl⟩

/-- An insertion ends; a rejected one leaves the entry of its key. -/
theorem insertShared_spec (cache : ByteBoundedCache K V) (key : K) (value : V) (weight : Nat) (pinned : Bool) :
    ∃ accepted next, cache.insertShared key value weight pinned = some (accepted, next) ∧
      Moves cache next (fun other => other = key ∧ accepted = true) ∧
      (accepted = false → next.entries.get? key = cache.entries.get? key) ∧
      (accepted = true → next.entries.get? key = some ⟨value, weight, next.nextGeneration, pinned⟩) := by
  by_cases heavy : cache.maxBytes < weight
  · refine ⟨false, cache, if_pos heavy, Moves.refl cache _, fun _ => rfl, fun accepted => ?_⟩
    exact absurd accepted Bool.false_ne_true
  · let previousWeight := (cache.entries.get? key).elim 0 ByteBoundedCacheEntry.weight
    obtain ⟨fits, roomy, rooms, moves, same, room⟩ :=
      makeRoom_spec key previousWeight weight (cache.entries.entries.length + 1) cache (Nat.lt_succ_self _)
    have inserts : cache.insertShared key value weight pinned =
        some (if fits then (true, roomy.place key value weight pinned) else (false, roomy)) := by
      rw [insertShared, if_neg heavy]
      simp only [bind, Option.bind]
      rw [rooms]
      rfl
    rw [inserts]
    cases fits with
    | false =>
      refine ⟨false, roomy, rfl, moves.weaken fun _ impossible => impossible.elim, fun _ => same, fun accepted => ?_⟩
      exact absurd accepted Bool.false_ne_true
    | true =>
      have fitting := room rfl
      rw [show previousWeight = (roomy.entries.get? key).elim 0 ByteBoundedCacheEntry.weight by rw [same]] at fitting
      refine ⟨true, _, rfl, ?_, fun rejected => absurd rejected.symm Bool.false_ne_true, fun _ => ?_⟩
      · refine (moves.weaken fun _ impossible => impossible.elim).trans ?_
        exact (place_moves roomy key value weight pinned fitting).weaken fun _ isKey => ⟨isKey, rfl⟩
      · rw [place_eq]
        exact OrderedMap.get?_insert_self _ _ _

/-! ## Histories -/

theorem apply_spec (cache : ByteBoundedCache K V) (operation : ByteOperation K V) :
    ∃ accepted next, operation.apply cache = some (accepted, next) ∧
      Moves cache next (operation.takes accepted) := by
  cases operation with
  | get key
  | contains key => exact ⟨true, _, rfl, renew_moves cache key _⟩
  | insertShared key value weight pinned =>
    obtain ⟨accepted, next, inserts, moves, _⟩ := insertShared_spec cache key value weight pinned
    exact ⟨accepted, next, inserts, moves⟩
  | retain keep => exact ⟨true, _, rfl, retain_moves cache keep⟩

theorem after_snoc {maxBytes : Nat} {history : List (ByteOperation K V)} {operation : ByteOperation K V}
    {accepted : Bool} (reached : after maxBytes history = some cache)
    (applied : operation.apply cache = some (accepted, next)) :
    after maxBytes (history ++ [operation]) = some next := by
  rw [after] at reached ⊢
  rw [List.foldlM_append, reached, Option.bind_eq_bind, Option.bind_some, List.foldlM_cons, applied]
  rfl

/-- Every history ends, in a balanced cache. -/
theorem after_balanced (maxBytes : Nat) (history : List (ByteOperation K V)) :
    ∃ cache, after maxBytes history = some cache ∧ cache.Balanced ∧ cache.maxBytes = maxBytes := by
  induction history using List.reverseRecOn with
  | nil => exact ⟨new maxBytes, rfl, ⟨Nat.zero_le _, fun _ => rfl⟩, rfl⟩
  | append_singleton history operation ih =>
    obtain ⟨cache, reached, balanced, same⟩ := ih
    obtain ⟨accepted, next, applied, moves⟩ := apply_spec cache operation
    exact ⟨next, after_snoc reached applied, moves.balanced balanced, moves.maxBytes.trans same⟩

end ByteBoundedCache

end DucklakeCatalog
