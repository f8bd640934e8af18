import DucklakeCatalog.Cache.ByteBoundedCache
import DucklakeCatalog.Cache.LruCache

/-! What the two bounded caches promise after any history. -/
namespace DucklakeCatalog

open KeyedStore

variable {K V : Type} [LinearOrder K]

/-- A cache without room keeps nothing, as its guard says, and a total that can reach the largest number is cut off
there. -/
theorem cache_without_room_or_bound :
    (Remembered 0 [LruOperation.insert 1 10] 1 10 ∧
      ∃ cache : LruCache Nat Nat, LruCache.after 0 [.insert 1 10] = some cache ∧ (cache.get 1).1 = none) ∧
    ∃ cache : ByteBoundedCache Nat Nat,
      ByteBoundedCache.after u64Max [.insertShared 1 10 u64Max false, .insertShared 2 20 1 false] = some cache ∧
        cache.totalBytes = u64Max ∧ cache.entries.total ByteBoundedCacheEntry.weight = u64Max + 1 := by
  refine ⟨⟨⟨[], [], rfl, ?_⟩, _, rfl, rfl⟩, _, rfl, rfl, rfl⟩
  intro between operation rest nothing
  exact absurd nothing (by simp)

/-- Bounded caches keep their accounting. -/
theorem bounded_caches_account (capacity maxBytes : Nat) :
    (∀ history : List (LruOperation K V), history.length < 2 ^ 64 →
      ∃ cache, LruCache.after capacity history = some cache ∧
        Indexes LruCacheEntry.sequence cache.recency cache.entries ∧
        cache.recency.entries.length = cache.entries.entries.length ∧ cache.entries.entries.length ≤ capacity ∧
        ∀ key value, (cache.get key).1 = some value ↔ 0 < capacity ∧ Remembered capacity history key value) ∧
    ∀ history : List (ByteOperation K V), ∃ cache, ByteBoundedCache.after maxBytes history = some cache ∧
      cache.totalBytes ≤ maxBytes ∧
      (maxBytes < u64Max → cache.totalBytes = cache.entries.total ByteBoundedCacheEntry.weight) ∧
      ∀ operation : ByteOperation K V, ∃ accepted next, operation.apply cache = some (accepted, next) ∧
        (∀ key value weight pinned, operation = .insertShared key value weight pinned → accepted = false →
          next.entries.get? key = cache.entries.get? key) ∧
        ∀ key entry, cache.entries.get? key = some entry → entry.pinned = true → ¬operation.takes accepted key →
          ∃ kept, next.entries.get? key = some kept ∧ kept.pinned = true ∧ kept.value = entry.value ∧
            kept.weight = entry.weight := by
  constructor
  · intro history fewer
    obtain ⟨cache, reached, sound, sameCapacity, bounded, remembers⟩ := LruCache.after_sound capacity fewer
    refine ⟨cache, reached, sound.indexes, sound.indexes.length_eq, bounded, fun key value => ?_⟩
    rw [LruCache.get_fst]
    by_cases positive : capacity = 0
    · rw [LruCache.find, LruCache.find_of_no_room (sameCapacity ▸ bounded) (sameCapacity.trans positive)]
      constructor
      · intro found
        cases found
      · rintro ⟨room, _⟩
        exact absurd positive room.ne'
    · rw [remembers positive key value, and_iff_right (Nat.pos_of_ne_zero positive)]
  · intro history
    obtain ⟨cache, reached, balanced, sameBound⟩ := ByteBoundedCache.after_balanced maxBytes history
    refine ⟨cache, reached, sameBound ▸ balanced.bounded, fun below => balanced.sum (sameBound ▸ below), ?_⟩
    intro operation
    obtain ⟨accepted, next, applied, moves⟩ := ByteBoundedCache.apply_spec cache operation
    refine ⟨accepted, next, applied, ?_, moves.pinned⟩
    rintro key value weight pinned rfl rejected
    obtain ⟨answer, last, inserts, _, stays, _⟩ := ByteBoundedCache.insertShared_spec cache key value weight pinned
    obtain ⟨rfl, rfl⟩ := Prod.mk.inj (Option.some.inj (applied.symm.trans inserts))
    exact stays rejected

/-- Using the first entry makes the second the least recently used one. -/
theorem bounded_caches_account_when_full :
    ∃ cache : LruCache Nat Nat, LruCache.after 2 [.insert 1 10, .insert 2 20, .get 1, .insert 3 30] = some cache ∧
      cache.entries.entries.length ≤ 2 ∧ cache.find 1 = some 10 ∧ cache.find 2 = none := by
  obtain ⟨cache, reached, _, _, bounded, _⟩ := (bounded_caches_account (K := Nat) (V := Nat) 2 100).1
    [.insert 1 10, .insert 2 20, .get 1, .insert 3 30] (by decide)
  refine ⟨cache, reached, bounded, ?_⟩
  cases reached
  exact ⟨rfl, rfl⟩

end DucklakeCatalog
