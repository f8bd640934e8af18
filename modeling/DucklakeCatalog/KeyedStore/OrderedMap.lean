import Mathlib.Order.Defs.LinearOrder
import Mathlib.Data.List.Sort

namespace KeyedStore

/-- Entries listed in strictly increasing key order, so a key occurs at most once. -/
def KeySorted [LinearOrder K] (entries : List (K × V)) : Prop :=
  entries.Pairwise fun left right => left.1 < right.1

/-- A finite map kept as its own ordered scan. -/
structure OrderedMap (K : Type) (V : Type) [LinearOrder K] where
  entries : List (K × V)
  sorted : KeySorted entries

section

variable {K V : Type} [LinearOrder K]

def insertEntry (key : K) (value : V) : List (K × V) → List (K × V)
  | [] => [(key, value)]
  | entry :: rest =>
    if key < entry.1 then (key, value) :: entry :: rest
    else if key = entry.1 then (key, value) :: rest
    else entry :: insertEntry key value rest

def eraseEntry (key : K) (entries : List (K × V)) : List (K × V) :=
  entries.filter fun entry => entry.1 ≠ key

theorem mem_insertEntry {entry : K × V} {entries : List (K × V)}
    (member : entry ∈ insertEntry key value entries) : entry = (key, value) ∨ entry ∈ entries := by
  induction entries with
  | nil => simpa [insertEntry] using member
  | cons head rest ih =>
    simp only [insertEntry] at member
    split at member
    · simpa using member
    · split at member
      · rcases List.mem_cons.mp member with same | member
        · exact Or.inl same
        · exact Or.inr (List.mem_cons_of_mem _ member)
      · rcases List.mem_cons.mp member with same | member
        · exact Or.inr (same ▸ List.mem_cons_self)
        · exact (ih member).imp id (List.mem_cons_of_mem _)

theorem KeySorted.insertEntry {entries : List (K × V)} (sorted : KeySorted entries) (key : K) (value : V) :
    KeySorted (insertEntry key value entries) := by
  induction entries with
  | nil => simp [KeySorted, KeyedStore.insertEntry]
  | cons head rest ih =>
    obtain ⟨above, sortedRest⟩ := List.pairwise_cons.mp sorted
    simp only [KeyedStore.insertEntry]
    split
    · rename_i below
      refine List.pairwise_cons.mpr ⟨?_, sorted⟩
      intro entry member
      rcases List.mem_cons.mp member with rfl | member
      · exact below
      · exact below.trans (above entry member)
    · split
      · rename_i same
        refine List.pairwise_cons.mpr ⟨?_, sortedRest⟩
        intro entry member
        simpa [same] using above entry member
      · rename_i notBelow different
        refine List.pairwise_cons.mpr ⟨?_, ih sortedRest⟩
        intro entry member
        rcases mem_insertEntry member with rfl | member
        · exact lt_of_le_of_ne (not_lt.mp notBelow) (Ne.symm different)
        · exact above entry member

theorem lookup_insertEntry (entries : List (K × V)) (key : K) (value : V) (query : K) :
    (insertEntry key value entries).lookup query =
      if query = key then some value else entries.lookup query := by
  induction entries with
  | nil =>
    by_cases same : query = key
    · simp [insertEntry, same]
    · simp [insertEntry, same, List.lookup_cons, beq_false_of_ne same]
  | cons head rest ih =>
    obtain ⟨headKey, headValue⟩ := head
    simp only [insertEntry]
    split
    · by_cases same : query = key
      · simp [same]
      · simp [same, List.lookup_cons, beq_false_of_ne same]
    · split
      · rename_i same
        by_cases found : query = key
        · simp [found]
        · have missed : query ≠ headKey := by simpa [← same] using found
          simp [found, List.lookup_cons, beq_false_of_ne found, beq_false_of_ne missed]
      · rename_i different
        by_cases found : query = headKey
        · have missed : query ≠ key := fun same => different (same.symm.trans found)
          simp [missed, ← found]
        · simp [List.lookup_cons, beq_false_of_ne found, ih]

theorem lookup_eraseEntry (entries : List (K × V)) (key query : K) :
    (eraseEntry key entries).lookup query = if query = key then none else entries.lookup query := by
  induction entries with
  | nil => simp [eraseEntry]
  | cons head rest ih =>
    obtain ⟨headKey, headValue⟩ := head
    by_cases dropped : headKey = key
    · have skipped : eraseEntry key ((headKey, headValue) :: rest) = eraseEntry key rest := by simp [eraseEntry, dropped]
      rw [skipped, ih]
      split
      · rfl
      · rename_i missed
        have passed : query ≠ headKey := fun same => missed (same.trans dropped)
        simp [List.lookup_cons, beq_false_of_ne passed]
    · have kept : eraseEntry key ((headKey, headValue) :: rest) = (headKey, headValue) :: eraseEntry key rest := by
        simp [eraseEntry, dropped]
      rw [kept]
      by_cases found : query = headKey
      · have missed : query ≠ key := fun same => dropped (found.symm.trans same)
        simp [missed, ← found]
      · simp [List.lookup_cons, beq_false_of_ne found, ih]

theorem lookup_eq_some_iff {entries : List (K × V)} (sorted : KeySorted entries) :
    entries.lookup key = some value ↔ (key, value) ∈ entries := by
  induction entries with
  | nil => simp
  | cons head rest ih =>
    obtain ⟨headKey, headValue⟩ := head
    obtain ⟨above, sortedRest⟩ := List.pairwise_cons.mp sorted
    by_cases found : key = headKey
    · have absent : (key, value) ∉ rest := fun member => (above _ member).ne found.symm
      simp [← found, absent, Prod.ext_iff, eq_comm]
    · simp [List.lookup_cons, beq_false_of_ne found, ih sortedRest, Prod.ext_iff, found]

theorem eraseEntry_of_above {entries : List (K × V)} (above : ∀ entry ∈ entries, key < entry.1) :
    eraseEntry key entries = entries := by
  apply List.filter_eq_self.mpr
  intro entry member
  simpa using (above entry member).ne'

/-- An insertion puts one entry in the place of those its key had. -/
theorem KeySorted.insertEntry_perm {entries : List (K × V)} (sorted : KeySorted entries) (key : K) (value : V) :
    (KeyedStore.insertEntry key value entries).Perm ((key, value) :: eraseEntry key entries) := by
  induction entries with
  | nil => exact List.Perm.refl _
  | cons head rest ih =>
    obtain ⟨above, sortedRest⟩ := List.pairwise_cons.mp sorted
    simp only [KeyedStore.insertEntry]
    split
    · rename_i below
      have allAbove : ∀ entry ∈ head :: rest, key < entry.1 := by
        intro entry member
        rcases List.mem_cons.mp member with rfl | later
        · exact below
        · exact below.trans (above entry later)
      rw [eraseEntry_of_above allAbove]
    · split
      · rename_i same
        have dropped : eraseEntry key (head :: rest) = eraseEntry key rest := by simp [eraseEntry, same]
        rw [dropped, eraseEntry_of_above (same ▸ above)]
      · rename_i different
        have kept : eraseEntry key (head :: rest) = head :: eraseEntry key rest := by
          simp [eraseEntry, Ne.symm different]
        rw [kept]
        exact ((ih sortedRest).cons head).trans (List.Perm.swap _ _ _)

theorem KeySorted.perm_erase {entries : List (K × V)} (sorted : KeySorted entries) (member : (key, value) ∈ entries) :
    entries.Perm ((key, value) :: eraseEntry key entries) := by
  induction entries with
  | nil => exact absurd member List.not_mem_nil
  | cons head rest ih =>
    obtain ⟨above, sortedRest⟩ := List.pairwise_cons.mp sorted
    rcases List.mem_cons.mp member with rfl | later
    · have dropped : eraseEntry key ((key, value) :: rest) = eraseEntry key rest := by simp [eraseEntry]
      rw [dropped, eraseEntry_of_above above]
    · have kept : eraseEntry key (head :: rest) = head :: eraseEntry key rest := by
        simp [eraseEntry, (above _ later).ne]
      rw [kept]
      exact ((ih sortedRest later).cons head).trans (List.Perm.swap _ _ _)

end

namespace OrderedMap

variable {K V : Type} [LinearOrder K]

def empty : OrderedMap K V where
  entries := []
  sorted := List.Pairwise.nil

instance : Inhabited (OrderedMap K V) := ⟨empty⟩

def get? (map : OrderedMap K V) (key : K) : Option V :=
  map.entries.lookup key

def insert (map : OrderedMap K V) (key : K) (value : V) : OrderedMap K V where
  entries := insertEntry key value map.entries
  sorted := map.sorted.insertEntry key value

def erase (map : OrderedMap K V) (key : K) : OrderedMap K V where
  entries := eraseEntry key map.entries
  sorted := List.Pairwise.filter _ map.sorted

/-- The entries of one key region, in key order. -/
def scan (map : OrderedMap K V) (inRange : K → Bool) : List (K × V) :=
  map.entries.filter fun entry => inRange entry.1

@[simp] theorem get?_empty (key : K) : (empty : OrderedMap K V).get? key = none := rfl

theorem entries_insert_perm (map : OrderedMap K V) (key : K) (value : V) :
    (map.insert key value).entries.Perm ((key, value) :: (map.erase key).entries) := map.sorted.insertEntry_perm key value

theorem entries_erase_of_none {map : OrderedMap K V} (missing : map.get? key = none) :
    (map.erase key).entries = map.entries := by
  apply List.filter_eq_self.mpr
  intro entry member
  have found : map.get? entry.1 = some entry.2 := (lookup_eq_some_iff map.sorted).mpr member
  have different : entry.1 ≠ key := by
    intro same
    rw [same, missing] at found
    cases found
  simpa using different

theorem entries_perm_erase {map : OrderedMap K V} (found : map.get? key = some value) :
    map.entries.Perm ((key, value) :: (map.erase key).entries) :=
  map.sorted.perm_erase ((lookup_eq_some_iff map.sorted).mp found)

@[simp] theorem entries_empty : (empty : OrderedMap K V).entries = [] := rfl

section

variable (map : OrderedMap K V)

include map

theorem get?_insert (key : K) (value : V) (query : K) :
    (map.insert key value).get? query = if query = key then some value else map.get? query :=
  lookup_insertEntry map.entries key value query

@[simp] theorem get?_insert_self (key : K) (value : V) :
    (map.insert key value).get? key = some value := by
  simp [get?_insert]

theorem get?_insert_ne (value : V) {key query : K} (different : query ≠ key) :
    (map.insert key value).get? query = map.get? query := by
  rw [get?_insert, if_neg different]

theorem get?_erase (key query : K) :
    (map.erase key).get? query = if query = key then none else map.get? query :=
  lookup_eraseEntry map.entries key query

theorem get?_eq_some_iff :
    map.get? key = some value ↔ (key, value) ∈ map.entries :=
  lookup_eq_some_iff map.sorted

end

theorem mem_scan {map : OrderedMap K V} {inRange : K → Bool} {entry : K × V} :
    entry ∈ map.scan inRange ↔ map.get? entry.1 = some entry.2 ∧ inRange entry.1 = true := by
  simp [scan, get?_eq_some_iff]

theorem scan_sorted (map : OrderedMap K V) (inRange : K → Bool) : KeySorted (map.scan inRange) :=
  List.Pairwise.filter _ map.sorted

/-- The strict key order never relates an entry to itself, which makes a scan a set of entries. -/
instance : Std.Irrefl fun left right : K × V => left.1 < right.1 := ⟨fun _ => lt_irrefl _⟩

instance : Std.Antisymm fun left right : K × V => left.1 < right.1 :=
  ⟨fun _ _ below above => absurd (below.trans above) (lt_irrefl _)⟩

theorem scan_congr {left right : OrderedMap K V} {inRange : K → Bool}
    (same : ∀ key, inRange key = true → left.get? key = right.get? key) :
    left.scan inRange = right.scan inRange := by
  refine List.Pairwise.eq_of_mem_iff (left.scan_sorted inRange) (right.scan_sorted inRange) ?_
  intro entry
  rw [mem_scan, mem_scan]
  constructor
  · rintro ⟨found, inside⟩
    exact ⟨same _ inside ▸ found, inside⟩
  · rintro ⟨found, inside⟩
    exact ⟨(same _ inside).symm ▸ found, inside⟩

/-- Scans agree on the entries of interest as soon as the maps hold the same ones. -/
theorem filter_scan_eq {left right : OrderedMap K V} {inRange : K → Bool} {wantedLeft wantedRight : K × V → Bool}
    (same : ∀ key value, inRange key = true → (left.get? key = some value ∧ wantedLeft (key, value) = true ↔
      right.get? key = some value ∧ wantedRight (key, value) = true)) :
    (left.scan inRange).filter wantedLeft = (right.scan inRange).filter wantedRight := by
  refine List.Pairwise.eq_of_mem_iff (List.Pairwise.filter _ (left.scan_sorted inRange))
    (List.Pairwise.filter _ (right.scan_sorted inRange)) ?_
  intro entry
  rw [List.mem_filter, List.mem_filter, mem_scan, mem_scan]
  constructor
  · rintro ⟨⟨found, inside⟩, want⟩
    obtain ⟨kept, wanted⟩ := (same _ _ inside).mp ⟨found, want⟩
    exact ⟨⟨kept, inside⟩, wanted⟩
  · rintro ⟨⟨found, inside⟩, want⟩
    obtain ⟨kept, wanted⟩ := (same _ _ inside).mpr ⟨found, want⟩
    exact ⟨⟨kept, inside⟩, wanted⟩

theorem filter_scan_congr {left right : OrderedMap K V} {inRange : K → Bool} {wanted : K × V → Bool}
    (same : ∀ key value, inRange key = true → wanted (key, value) = true →
      (left.get? key = some value ↔ right.get? key = some value)) :
    (left.scan inRange).filter wanted = (right.scan inRange).filter wanted :=
  filter_scan_eq fun key value inside => and_congr_left (same key value inside)

/-- The last entry of a scan is the one with the greatest key. -/
theorem getLast?_scan_eq_some {map : OrderedMap K V} {inRange : K → Bool} {entry : K × V} :
    (map.scan inRange).getLast? = some entry ↔
      entry ∈ map.scan inRange ∧ ∀ other ∈ map.scan inRange, other.1 ≤ entry.1 := by
  constructor
  · intro last
    obtain ⟨front, split⟩ := List.getLast?_eq_some_iff.mp last
    have sorted := map.scan_sorted inRange
    rw [split] at sorted ⊢
    refine ⟨List.mem_append_right _ List.mem_cons_self, ?_⟩
    intro other member
    rcases List.mem_append.mp member with earlier | same
    · exact ((List.pairwise_append.mp sorted).2.2 other earlier entry List.mem_cons_self).le
    · rw [List.mem_singleton.mp same]
  · rintro ⟨member, greatest⟩
    cases last : (map.scan inRange).getLast? with
    | none => simp [List.getLast?_eq_none_iff.mp last] at member
    | some final =>
      obtain ⟨front, split⟩ := List.getLast?_eq_some_iff.mp last
      have sorted := map.scan_sorted inRange
      rw [split] at sorted member greatest
      rcases List.mem_append.mp member with earlier | same
      · have below := (List.pairwise_append.mp sorted).2.2 entry earlier final List.mem_cons_self
        exact absurd (greatest final (List.mem_append_right _ List.mem_cons_self)) (not_le.mpr below)
      · rw [List.mem_singleton.mp same]

/-- A region without entries scans as the empty list. -/
theorem scan_eq_nil {map : OrderedMap K V} {inRange : K → Bool}
    (missing : ∀ key value, map.get? key = some value → inRange key = false) : map.scan inRange = [] := by
  refine List.eq_nil_iff_forall_not_mem.mpr ?_
  intro entry member
  obtain ⟨found, inside⟩ := mem_scan.mp member
  simp [missing _ _ found] at inside

theorem scan_eq_singleton {map : OrderedMap K V} {inRange : K → Bool} {key : K} {value : V}
    (found : map.get? key = some value) (inside : inRange key = true)
    (only : ∀ other stored, map.get? other = some stored → inRange other = true → other = key) :
    map.scan inRange = [(key, value)] := by
  refine List.Pairwise.eq_of_mem_iff (map.scan_sorted inRange) (List.pairwise_singleton _ _) ?_
  intro entry
  rw [mem_scan, List.mem_singleton]
  constructor
  · rintro ⟨stored, within⟩
    obtain same := only _ _ stored within
    rw [same, found] at stored
    exact Prod.ext same (Option.some.inj stored).symm
  · rintro rfl
    exact ⟨found, inside⟩

theorem ext_get? {left right : OrderedMap K V} (same : ∀ key, left.get? key = right.get? key) :
    left = right := by
  have sameEntries : left.entries = right.entries := by
    refine List.Pairwise.eq_of_mem_iff left.sorted right.sorted ?_
    intro entry
    rw [← get?_eq_some_iff, ← get?_eq_some_iff, same]
  cases left
  cases right
  simpa using sameEntries

theorem insert_comm (map : OrderedMap K V) {first second : K} (different : first ≠ second) (left right : V) :
    (map.insert first left).insert second right = (map.insert second right).insert first left := by
  refine ext_get? ?_
  intro query
  simp only [get?_insert]
  split
  · rename_i same
    have missed : query ≠ first := fun found => different (found.symm.trans same)
    simp [missed]
  · rfl

/-- After items are stored one after another a key holds the value of one of them, or what it held before. -/
theorem get?_foldl_insert_cases {α : Type} (map : OrderedMap K V) (items : List α) (keyOf : α → K) (valueOf : α → V)
    (query : K) :
    (∃ item ∈ items, keyOf item = query ∧
        (items.foldl (fun stored item => stored.insert (keyOf item) (valueOf item)) map).get? query =
          some (valueOf item)) ∨
      ((∀ item ∈ items, keyOf item ≠ query) ∧
        (items.foldl (fun stored item => stored.insert (keyOf item) (valueOf item)) map).get? query =
          map.get? query) := by
  induction items generalizing map with
  | nil => exact Or.inr ⟨by simp, rfl⟩
  | cons first rest ih =>
    rw [List.foldl_cons]
    rcases ih (map.insert (keyOf first) (valueOf first)) with ⟨item, later, named, found⟩ | ⟨missed, kept⟩
    · exact Or.inl ⟨item, List.mem_cons_of_mem _ later, named, found⟩
    · rw [get?_insert] at kept
      by_cases same : query = keyOf first
      · rw [if_pos same] at kept
        exact Or.inl ⟨first, List.mem_cons_self, same.symm, kept⟩
      · rw [if_neg same] at kept
        refine Or.inr ⟨?_, kept⟩
        intro item member
        rcases List.mem_cons.mp member with rfl | later
        · exact fun named => same named.symm
        · exact missed item later

theorem get?_insert_isSome {map : OrderedMap K V} {key query : K} {value : V} (found : (map.get? query).isSome) :
    ((map.insert key value).get? query).isSome := by
  rw [get?_insert]
  split
  · rfl
  · exact found

/-- Steps that each erase one key from the map they see erase the keys of the whole list. -/
theorem get?_foldl_erases {σ α : Type} (view : σ → OrderedMap K V) (keyOf : α → K) {step : σ → α → σ}
    (erases : ∀ state item, view (step state item) = (view state).erase (keyOf item)) (items : List α) (state : σ)
    (key : K) [Decidable (key ∈ items.map keyOf)] :
    (view (items.foldl step state)).get? key = if key ∈ items.map keyOf then none else (view state).get? key := by
  have erased : (key ∈ items.map keyOf → (view (items.foldl step state)).get? key = none) ∧
      (key ∉ items.map keyOf → (view (items.foldl step state)).get? key = (view state).get? key) := by
    induction items generalizing state with
    | nil => simp
    | cons item rest ih =>
      rw [List.foldl_cons, List.map_cons, List.mem_cons, not_or]
      obtain ⟨taken, left⟩ := ih (step state item)
      rw [erases, get?_erase] at left
      constructor
      · intro listed
        by_cases later : key ∈ rest.map keyOf
        · exact taken later
        · rw [left later, if_pos (listed.resolve_right later)]
      · rintro ⟨other, missed⟩
        rw [left missed, if_neg other]
  split
  · rename_i listed
    exact erased.1 listed
  · rename_i missed
    exact erased.2 missed

section

variable (keyOf : V → K)

/-- Values stored one after another under their own keys. -/
def insertAll (map : OrderedMap K V) (values : List V) : OrderedMap K V :=
  values.foldl (fun stored value => stored.insert (keyOf value) value) map

theorem get?_insertAll_of_not_mem (map : OrderedMap K V) {values : List V} (missed : key ∉ values.map keyOf) :
    (map.insertAll keyOf values).get? key = map.get? key := by
  induction values generalizing map with
  | nil => rfl
  | cons value rest ih =>
    simp only [List.map_cons, List.mem_cons, not_or] at missed
    have stored := ih (map.insert (keyOf value) value) missed.2
    rw [get?_insert, if_neg missed.1] at stored
    exact stored

theorem get?_insertAll_of_mem (map : OrderedMap K V) {values : List V} (distinct : (values.map keyOf).Nodup)
    (member : value ∈ values) : (map.insertAll keyOf values).get? (keyOf value) = some value := by
  induction values generalizing map with
  | nil => exact absurd member List.not_mem_nil
  | cons first rest ih =>
    obtain ⟨notLater, distinctRest⟩ := List.nodup_cons.mp distinct
    rcases List.mem_cons.mp member with rfl | later
    · have stored := get?_insertAll_of_not_mem keyOf (map.insert (keyOf value) value) notLater
      rw [get?_insert_self] at stored
      exact stored
    · exact ih (map.insert (keyOf first) first) distinctRest later

/-- Values that agree whenever their keys do are all stored, whatever their order. -/
theorem get?_insertAll_of_agree (map : OrderedMap K V) {values : List V}
    (agree : ∀ left ∈ values, ∀ right ∈ values, keyOf left = keyOf right → left = right) {key : K} {value : V} :
    (map.insertAll keyOf values).get? key = some value ↔
      (value ∈ values ∧ keyOf value = key) ∨ (key ∉ values.map keyOf ∧ map.get? key = some value) := by
  induction values generalizing map with
  | nil => simp [insertAll]
  | cons first rest ih =>
    have step : map.insertAll keyOf (first :: rest) = (map.insert (keyOf first) first).insertAll keyOf rest := rfl
    rw [step, ih _ fun left inLeft right inRight =>
      agree left (List.mem_cons_of_mem _ inLeft) right (List.mem_cons_of_mem _ inRight), get?_insert]
    by_cases same : key = keyOf first
    · subst same
      constructor
      · rintro (⟨later, named⟩ | ⟨_, found⟩)
        · exact Or.inl ⟨List.mem_cons_of_mem _ later, named⟩
        · rw [if_pos rfl, Option.some.injEq] at found
          exact Or.inl ⟨found ▸ List.mem_cons_self, by rw [found]⟩
      · rintro (⟨member, named⟩ | ⟨missed, _⟩)
        · obtain rfl := agree value member first List.mem_cons_self named
          by_cases later : keyOf value ∈ rest.map keyOf
          · obtain ⟨other, inRest, sameKey⟩ := List.mem_map.mp later
            obtain rfl := agree other (List.mem_cons_of_mem _ inRest) value List.mem_cons_self sameKey
            exact Or.inl ⟨inRest, rfl⟩
          · exact Or.inr ⟨later, by simp⟩
        · simp at missed
    · have different : ∀ member : V, keyOf member = key → member ≠ first := by
        rintro member named rfl
        exact same named.symm
      rw [if_neg same, List.map_cons, List.mem_cons, List.mem_cons]
      constructor
      · rintro (⟨later, named⟩ | ⟨missed, found⟩)
        · exact Or.inl ⟨Or.inr later, named⟩
        · exact Or.inr ⟨by simp [same, missed], found⟩
      · rintro (⟨rfl | later, named⟩ | ⟨missed, found⟩)
        · exact absurd rfl (different value named)
        · exact Or.inl ⟨later, named⟩
        · exact Or.inr ⟨fun later => missed (Or.inr later), found⟩

end

end OrderedMap

end KeyedStore
