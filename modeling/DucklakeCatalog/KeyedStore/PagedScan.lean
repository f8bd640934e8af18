import DucklakeCatalog.KeyedStore.OrderedMap

/-! A range read in pages, each from the state the store is in at that moment. -/
namespace KeyedStore

inductive RangeDirection where
  | forward
  | reverse
  deriving DecidableEq

variable {K V S E : Type} [LinearOrder K]

/-- The order in which a scan meets its keys. -/
def RangeDirection.Before (direction : RangeDirection) (left right : K) : Prop :=
  match direction with
  | .forward => left < right
  | .reverse => right < left

variable {entry : K × V} {map : OrderedMap K V} {inRange : K → Bool}

namespace RangeDirection

variable (direction : RangeDirection)

instance (left right : K) : Decidable (direction.Before left right) := by
  cases direction
  · exact inferInstanceAs (Decidable (left < right))
  · exact inferInstanceAs (Decidable (right < left))

theorem Before.trans {direction : RangeDirection} {first second third : K} (left : direction.Before first second)
    (right : direction.Before second third) : direction.Before first third := by
  cases direction
  · exact lt_trans left right
  · exact lt_trans right left

theorem not_before_self (key : K) : ¬direction.Before key key := by
  cases direction <;> exact lt_irrefl key

theorem before_or_eq_or_after (left right : K) :
    direction.Before left right ∨ left = right ∨ direction.Before right left := by
  cases direction
  · exact lt_trichotomy left right
  · rcases lt_trichotomy left right with below | same | above
    · exact Or.inr (Or.inr below)
    · exact Or.inr (Or.inl same)
    · exact Or.inl above

instance : Std.Irrefl fun left right : K × V => direction.Before left.1 right.1 :=
  ⟨fun entry => direction.not_before_self entry.1⟩

instance : Std.Antisymm fun left right : K × V => direction.Before left.1 right.1 :=
  ⟨fun left _ before after => absurd (before.trans after) (direction.not_before_self left.1)⟩

def arrange (entries : List (K × V)) : List (K × V) :=
  match direction with
  | .forward => entries
  | .reverse => entries.reverse

omit [LinearOrder K] in
@[simp] theorem mem_arrange {entries : List (K × V)} :
    entry ∈ direction.arrange entries ↔ entry ∈ entries := by
  cases direction <;> simp [arrange]

end RangeDirection

/-- The entries of a range in the order of a scan. -/
def OrderedMap.rangeEntries (map : OrderedMap K V) (direction : RangeDirection) (inRange : K → Bool) : List (K × V) :=
  direction.arrange (map.scan inRange)

theorem OrderedMap.mem_rangeEntries {direction : RangeDirection}
    : entry ∈ map.rangeEntries direction inRange ↔
      map.get? entry.1 = some entry.2 ∧ inRange entry.1 = true := by
  rw [rangeEntries, RangeDirection.mem_arrange, mem_scan]

theorem OrderedMap.rangeEntries_sorted (map : OrderedMap K V) (direction : RangeDirection) (inRange : K → Bool) :
    (map.rangeEntries direction inRange).Pairwise fun left right => direction.Before left.1 right.1 := by
  cases direction
  · exact map.scan_sorted inRange
  · exact List.pairwise_reverse.mpr (map.scan_sorted inRange)

/-! ## The cursor -/

structure ScanCursor (K V : Type) where
  inRange : K → Bool
  direction : RangeDirection
  pageSize : Nat
  /-- Items still wanted; `none` when the scan has no limit. -/
  remaining : Option Nat
  /-- The last key read, which the range of the next page leaves behind. -/
  last : Option K := none
  done : Bool
  items : List (K × V) := []

inductive ScanFault where
  | emptyPageSize
  | pageOutOfBounds
  | continuationUnordered
  deriving DecidableEq

namespace ScanCursor

/-- `usize::MAX` as a limit is no limit. A range that is empty ends with its first page. -/
def tryNew (inRange : K → Bool) (direction : RangeDirection) (pageSize : Nat) (limit : Option Nat) :
    Except ScanFault (ScanCursor K V) :=
  if pageSize = 0 then .error .emptyPageSize
  else .ok { inRange, direction, pageSize, remaining := limit, done := limit = some 0 }

def requested (cursor : ScanCursor K V) : Nat := cursor.remaining.elim cursor.pageSize (min · cursor.pageSize)

/-- The key lies in the part of the range that no page has covered. -/
def Unread (cursor : ScanCursor K V) (key : K) : Prop :=
  cursor.inRange key = true ∧ ∀ last ∈ cursor.last, cursor.direction.Before last key

instance (cursor : ScanCursor K V) (key : K) : Decidable (cursor.Unread key) :=
  inferInstanceAs (Decidable (_ ∧ ∀ last ∈ cursor.last, cursor.direction.Before last key))

/-- What one transaction answers: the first entries of the rest of the range. -/
def readPage (cursor : ScanCursor K V) (map : OrderedMap K V) : List (K × V) :=
  ((map.rangeEntries cursor.direction cursor.inRange).filter fun entry => cursor.Unread entry.1).take cursor.requested

/-- The cursor behind a page; a full page may be followed by another one. -/
def advance (cursor : ScanCursor K V) (page : List (K × V)) (last : K) : ScanCursor K V :=
  { cursor with
    remaining := cursor.remaining.map (· - page.length)
    last := some last
    done := !(decide (page.length = cursor.requested) && cursor.remaining.all (page.length < ·))
    items := cursor.items ++ page }

/-- A page is taken if it is ordered, inside the rest of the range and no longer than asked for. -/
def acceptPage (cursor : ScanCursor K V) (page : List (K × V)) : Except ScanFault (ScanCursor K V) :=
  match page.getLast? with
  | none => .ok { cursor with done := true }
  | some last =>
    if cursor.requested < page.length ∨
        ¬ (page.IsChain fun left right => cursor.direction.Before left.1 right.1) ∨
        ¬ ∀ entry ∈ page, cursor.Unread entry.1 then
      .error .pageOutOfBounds
    else if ¬ ∀ previous ∈ cursor.items.getLast?, ∀ first ∈ page.head?, cursor.direction.Before previous.1 first.1 then
      .error .continuationUnordered
    else .ok (cursor.advance page last.1)

end ScanCursor

/-! ## The loop -/

/-- What one attempt to read a page meets. -/
inductive PageAttempt (S E : Type) where
  | reads (state : S)
  | retryable (failure : E)
  | fails (failure : E)
  | deadlineReached

inductive ScanFailure (E : Type) where
  | fault (fault : ScanFault)
  | failed (failure : E)
  | retriesExhausted (failure : E)
  | deadlineExhausted

section Loop

variable (view : S → OrderedMap K V)

/-- Pages are read until the cursor is done; a retryable failure repeats a page while retries remain. The attempts are
those that have been made so far. -/
def scanPages : List (PageAttempt S E) → ScanCursor K V → Nat → Option (Except (ScanFailure E) (List (K × V)))
  | attempts, cursor, retries =>
    if cursor.done then some (.ok cursor.items)
    else
      match attempts with
      | [] => none
      | .deadlineReached :: _ => some (.error .deadlineExhausted)
      | .fails failure :: _ => some (.error (.failed failure))
      | .retryable failure :: later =>
        if retries = 0 then some (.error (.retriesExhausted failure)) else scanPages later cursor (retries - 1)
      | .reads state :: later =>
        match cursor.acceptPage (cursor.readPage (view state)) with
        | .error fault => some (.error (.fault fault))
        | .ok cursor => scanPages later cursor retries

/-- The pages of the loop: where the cursor stood and what the page was read from. -/
def pagesRead : List (PageAttempt S E) → ScanCursor K V → List (ScanCursor K V × S)
  | attempts, cursor =>
    if cursor.done then []
    else
      match attempts with
      | .retryable _ :: later => pagesRead later cursor
      | .reads state :: later =>
        match cursor.acceptPage (cursor.readPage (view state)) with
        | .error _ => []
        | .ok next => (cursor, state) :: pagesRead later next
      | _ => []

end Loop

/-! ## What one page covers -/

namespace ScanCursor

variable {cursor : ScanCursor K V}

/-- The keys a page answers for: those up to its last key, or the whole rest of the range if it was not full. -/
def Covers (cursor : ScanCursor K V) (map : OrderedMap K V) (key : K) : Prop :=
  cursor.Unread key ∧ ((cursor.readPage map).length < cursor.pageSize ∨
    ∀ last ∈ (cursor.readPage map).getLast?, ¬cursor.direction.Before last.1 key)

/-- A scan without limit whose items are ordered and lie in the part already read. -/
structure Proper (cursor : ScanCursor K V) : Prop where
  unlimited : cursor.remaining = none
  pageSize : 0 < cursor.pageSize
  sorted : cursor.items.Pairwise fun left right => cursor.direction.Before left.1 right.1
  read : ∀ entry ∈ cursor.items, cursor.inRange entry.1 = true ∧
    ∀ key, cursor.Unread key → cursor.direction.Before entry.1 key

theorem Proper.requested (proper : cursor.Proper) : cursor.requested = cursor.pageSize := by
  rw [ScanCursor.requested, proper.unlimited]
  rfl

/-- Entries of the rest of the range. -/
def rest (cursor : ScanCursor K V) (map : OrderedMap K V) : List (K × V) :=
  (map.rangeEntries cursor.direction cursor.inRange).filter fun entry => cursor.Unread entry.1

theorem mem_rest :
    entry ∈ cursor.rest map ↔ map.get? entry.1 = some entry.2 ∧ cursor.Unread entry.1 := by
  rw [rest, List.mem_filter, OrderedMap.mem_rangeEntries, decide_eq_true_eq]
  exact ⟨fun ⟨⟨found, _⟩, unread⟩ => ⟨found, unread⟩, fun ⟨found, unread⟩ => ⟨⟨found, unread.1⟩, unread⟩⟩

theorem rest_sorted (cursor : ScanCursor K V) (map : OrderedMap K V) :
    (cursor.rest map).Pairwise fun left right => cursor.direction.Before left.1 right.1 :=
  List.Pairwise.filter _ (map.rangeEntries_sorted cursor.direction cursor.inRange)

theorem readPage_eq (proper : cursor.Proper) (map : OrderedMap K V) :
    cursor.readPage map = (cursor.rest map).take cursor.pageSize := by
  rw [readPage, proper.requested, rest]

theorem readPage_sorted (cursor : ScanCursor K V) (map : OrderedMap K V) :
    (cursor.readPage map).Pairwise fun left right => cursor.direction.Before left.1 right.1 :=
  (cursor.rest_sorted map).sublist (List.take_sublist _ _)

theorem readPage_unread (member : entry ∈ cursor.readPage map) :
    map.get? entry.1 = some entry.2 ∧ cursor.Unread entry.1 :=
  mem_rest.mp (List.mem_of_mem_take member)

/-- Nothing of a page comes after its last entry. -/
theorem not_after_last {last : K × V} (member : entry ∈ cursor.readPage map)
    (ends : (cursor.readPage map).getLast? = some last) : ¬cursor.direction.Before last.1 entry.1 := by
  intro after
  obtain ⟨start, same⟩ := List.getLast?_eq_some_iff.mp ends
  have sorted := cursor.readPage_sorted map
  rw [same] at member sorted
  rcases List.mem_append.mp member with earlier | own
  · have before := (List.pairwise_append.mp sorted).2.2 entry earlier last (List.mem_singleton_self _)
    exact cursor.direction.not_before_self _ (before.trans after)
  · rw [List.mem_singleton.mp own] at after
    exact cursor.direction.not_before_self _ after

/-- A page holds exactly the entries under the keys it covers. -/
theorem mem_readPage (proper : cursor.Proper) :
    entry ∈ cursor.readPage map ↔ map.get? entry.1 = some entry.2 ∧ cursor.Covers map entry.1 := by
  constructor
  · intro member
    obtain ⟨found, unread⟩ := readPage_unread member
    exact ⟨found, unread, Or.inr fun last ends => not_after_last member ends⟩
  · rintro ⟨found, unread, short | within⟩
    · rw [readPage_eq proper, List.length_take] at short
      rw [readPage_eq proper, List.take_of_length_le (by omega)]
      exact mem_rest.mpr ⟨found, unread⟩
    · have listed : entry ∈ cursor.rest map := mem_rest.mpr ⟨found, unread⟩
      rw [← List.take_append_drop cursor.pageSize (cursor.rest map)] at listed
      rcases List.mem_append.mp listed with taken | later
      · rwa [readPage_eq proper]
      · -- an entry behind a page comes after its last entry
        have sorted := cursor.rest_sorted map
        rw [← List.take_append_drop cursor.pageSize (cursor.rest map)] at sorted
        have nonempty : (cursor.rest map).take cursor.pageSize ≠ [] := by
          intro empty
          rcases List.take_eq_nil_iff.mp empty with none | none
          · exact absurd none proper.pageSize.ne'
          · rw [none, List.drop_nil] at later
            cases later
        obtain ⟨last, ends⟩ := Option.isSome_iff_exists.mp (List.getLast?_isSome.mpr nonempty)
        have after := (List.pairwise_append.mp sorted).2.2 last (List.mem_of_getLast? ends) entry later
        rw [← readPage_eq proper] at ends
        exact absurd after (within last ends)

/-- A page read from a map is taken; what it covers is no longer unread. -/
theorem acceptPage_readPage (proper : cursor.Proper) (map : OrderedMap K V) :
    ∃ next, cursor.acceptPage (cursor.readPage map) = .ok next ∧ next.Proper ∧ next.inRange = cursor.inRange ∧
      next.direction = cursor.direction ∧ next.items = cursor.items ++ cursor.readPage map ∧
      ∀ key, (next.done = false ∧ next.Unread key) ↔ cursor.Unread key ∧ ¬cursor.Covers map key := by
  have sized : (cursor.readPage map).length ≤ cursor.pageSize := by
    rw [readPage_eq proper]
    exact List.length_take_le _ _
  cases ends : (cursor.readPage map).getLast? with
  | none =>
    have empty := List.getLast?_eq_none_iff.mp ends
    refine ⟨{ cursor with done := true }, by rw [acceptPage, ends], ⟨proper.unlimited, proper.pageSize, proper.sorted,
      proper.read⟩, rfl, rfl, by rw [empty, List.append_nil], fun key => ?_⟩
    have short : (cursor.readPage map).length < cursor.pageSize := by
      rw [empty]
      exact proper.pageSize
    constructor
    · exact fun open' => absurd open'.1 (by simp)
    · exact fun ⟨unread, uncovered⟩ => absurd ⟨unread, Or.inl short⟩ uncovered
  | some last =>
    have lastUnread := (readPage_unread (List.mem_of_getLast? ends)).2
    have upTo {entry : K × V} (member : entry ∈ cursor.readPage map) {key : K}
        (after : cursor.direction.Before last.1 key) : cursor.direction.Before entry.1 key := by
      rcases cursor.direction.before_or_eq_or_after entry.1 last.1 with before | same | beyond
      · exact before.trans after
      · exact same ▸ after
      · exact absurd beyond (not_after_last member ends)
    have bounded : ¬(cursor.requested < (cursor.readPage map).length ∨
        ¬ ((cursor.readPage map).IsChain fun left right => cursor.direction.Before left.1 right.1) ∨
        ¬ ∀ entry ∈ cursor.readPage map, cursor.Unread entry.1) := by
      rw [proper.requested]
      rintro (long | unsorted | outside)
      · omega
      · exact unsorted (cursor.readPage_sorted map).isChain
      · exact outside fun entry member => (readPage_unread member).2
    have continued : ∀ previous ∈ cursor.items.getLast?, ∀ first ∈ (cursor.readPage map).head?,
        cursor.direction.Before previous.1 first.1 := fun previous isLast first isFirst =>
      (proper.read previous (List.mem_of_getLast? isLast)).2 first.1
        (readPage_unread (List.mem_of_mem_head? isFirst)).2
    have accepted : cursor.acceptPage (cursor.readPage map) = .ok (cursor.advance (cursor.readPage map) last.1) := by
      rw [acceptPage, ends]
      exact (if_neg bounded).trans (if_neg (not_not.mpr continued))
    have further {key : K} (unread : (cursor.advance (cursor.readPage map) last.1).Unread key) :
        cursor.direction.Before last.1 key ∧ cursor.Unread key := by
      have after : cursor.direction.Before last.1 key := unread.2 last.1 rfl
      exact ⟨after, unread.1, fun earlier isLast => (lastUnread.2 earlier isLast).trans after⟩
    refine ⟨_, accepted, ⟨?_, proper.pageSize, ?_, ?_⟩, rfl, rfl, rfl, ?_⟩
    · simp only [advance, proper.unlimited, Option.map_none]
    · refine List.pairwise_append.mpr ⟨proper.sorted, cursor.readPage_sorted map, fun earlier read entry member => ?_⟩
      exact (proper.read earlier read).2 entry.1 (readPage_unread member).2
    · intro entry member
      rcases List.mem_append.mp member with read | taken
      · exact ⟨(proper.read entry read).1, fun key unread => (proper.read entry read).2 key (further unread).2⟩
      · exact ⟨(readPage_unread taken).2.1, fun key unread => upTo taken (further unread).1⟩
    · intro key
      have full : (cursor.advance (cursor.readPage map) last.1).done = false ↔
          (cursor.readPage map).length = cursor.pageSize := by
        simp only [advance, proper.requested, proper.unlimited, Option.all_none, Bool.and_true, Bool.not_eq_false',
          decide_eq_true_eq]
      rw [full]
      constructor
      · rintro ⟨whole, unread⟩
        refine ⟨(further unread).2, ?_⟩
        rintro ⟨_, short | within⟩
        · omega
        · exact within last ends (further unread).1
      · rintro ⟨unread, uncovered⟩
        have notShort : ¬(cursor.readPage map).length < cursor.pageSize := fun short => uncovered ⟨unread, Or.inl short⟩
        have after : cursor.direction.Before last.1 key := by
          by_contra within
          refine uncovered ⟨unread, Or.inr fun other isLast => ?_⟩
          rw [ends, Option.mem_some] at isLast
          exact isLast ▸ within
        refine ⟨by omega, unread.1, fun other isLast => ?_⟩
        rw [← Option.some.inj isLast]
        exact after

end ScanCursor

/-! ## What the loop returns -/

namespace ScanCursor

/-- The key is still to be read. -/
def Pending (cursor : ScanCursor K V) (key : K) : Prop := cursor.done = false ∧ cursor.Unread key

/-- The start of a scan of a whole range. -/
theorem tryNew_proper {direction : RangeDirection} {pageSize : Nat} {cursor : ScanCursor K V}
    (created : tryNew inRange direction pageSize none = .ok cursor) :
    cursor.Proper ∧ cursor.inRange = inRange ∧ cursor.direction = direction ∧ cursor.items = [] ∧
      ∀ key, inRange key = true → cursor.Pending key := by
  unfold tryNew at created
  split at created
  · cases created
  · rename_i positive
    cases created
    refine ⟨⟨rfl, Nat.pos_of_ne_zero positive, List.Pairwise.nil, ?_⟩, rfl, rfl, rfl, fun key inside => ⟨rfl, inside, ?_⟩⟩
    · intro entry member
      cases member
    · intro last isLast
      cases isLast

end ScanCursor

/-- The items of a finished scan, key by key: each key still to be read is covered by one page, and its entry is the
one that page was read with. -/
structure ReadBy (view : S → OrderedMap K V) (pages : List (ScanCursor K V × S)) (cursor : ScanCursor K V)
    (items : List (K × V)) : Prop where
  sorted : items.Pairwise fun left right => cursor.direction.Before left.1 right.1
  inside : ∀ entry ∈ items, cursor.inRange entry.1 = true
  earlier : ∀ key, ¬cursor.Pending key → ∀ value, (key, value) ∈ items ↔ (key, value) ∈ cursor.items
  covered : ∀ key, cursor.Pending key → ∃ page ∈ pages, page.1.Covers (view page.2) key
  ranged : ∀ page ∈ pages, page.1.inRange = cursor.inRange
  entries : ∀ page ∈ pages, ∀ key, page.1.Covers (view page.2) key → ∀ value,
    (key, value) ∈ items ↔ (view page.2).get? key = some value

/-- One page: what the rest of the scan reads, and what this page covers. -/
theorem ReadBy.page {view : S → OrderedMap K V} {pages : List (ScanCursor K V × S)} {cursor next : ScanCursor K V}
    {items : List (K × V)} {state : S} (proper : cursor.Proper) (open' : cursor.done = false)
    (sameRange : next.inRange = cursor.inRange) (sameDirection : next.direction = cursor.direction)
    (extended : next.items = cursor.items ++ cursor.readPage (view state))
    (rest : ∀ key, next.Pending key ↔ cursor.Unread key ∧ ¬cursor.Covers (view state) key)
    (later : ReadBy view pages next items) : ReadBy view ((cursor, state) :: pages) cursor items where
  sorted := sameDirection ▸ later.sorted
  inside := sameRange ▸ later.inside
  earlier := by
    intro key settled value
    have unpending : ¬next.Pending key := fun pending => settled ⟨open', ((rest key).mp pending).1⟩
    rw [later.earlier key unpending, extended, List.mem_append, or_iff_left]
    exact fun member => settled ⟨open', (ScanCursor.readPage_unread member).2⟩
  covered := by
    intro key pending
    by_cases covers : cursor.Covers (view state) key
    · exact ⟨_, List.mem_cons_self, covers⟩
    · obtain ⟨page, listed, covers⟩ := later.covered key ((rest key).mpr ⟨pending.2, covers⟩)
      exact ⟨page, List.mem_cons_of_mem _ listed, covers⟩
  ranged := by
    intro page listed
    rcases List.mem_cons.mp listed with rfl | listed
    · rfl
    · exact (later.ranged page listed).trans sameRange
  entries := by
    intro page listed key covers value
    rcases List.mem_cons.mp listed with rfl | listed
    · have unpending : ¬next.Pending key := fun pending => ((rest key).mp pending).2 covers
      have unread : (key, value) ∉ cursor.items := fun member =>
        cursor.direction.not_before_self key ((proper.read _ member).2 key covers.1)
      rw [later.earlier key unpending, extended, List.mem_append, or_iff_right unread, ScanCursor.mem_readPage proper]
      exact and_iff_left covers
    · exact later.entries page listed key covers value

/-- A scan that is finished returns what it has. -/
theorem ReadBy.done {view : S → OrderedMap K V} {cursor : ScanCursor K V} (proper : cursor.Proper)
    (finished : cursor.done = true) : ReadBy view [] cursor cursor.items where
  sorted := proper.sorted
  inside := fun entry member => (proper.read entry member).1
  earlier := fun _ _ _ => Iff.rfl
  covered := by
    intro key pending
    rw [pending.1] at finished
    cases finished
  ranged := by
    intro page listed
    cases listed
  entries := by
    intro page listed
    cases listed

variable {attempts : List (PageAttempt S E)}

theorem pagesRead_done {view : S → OrderedMap K V} {cursor : ScanCursor K V}
    (finished : cursor.done = true) : pagesRead view attempts cursor = [] := by
  unfold pagesRead
  exact if_pos finished

theorem pagesRead_retryable {view : S → OrderedMap K V} {failure : E} {later : List (PageAttempt S E)}
    {cursor : ScanCursor K V} (unfinished : ¬cursor.done = true) :
    pagesRead view (.retryable failure :: later) cursor = pagesRead view later cursor := by
  rw [pagesRead]
  exact if_neg unfinished

theorem pagesRead_reads {view : S → OrderedMap K V} {state : S} {later : List (PageAttempt S E)}
    {cursor next : ScanCursor K V} (unfinished : ¬cursor.done = true)
    (accepted : cursor.acceptPage (cursor.readPage (view state)) = .ok next) :
    pagesRead view (.reads state :: later) cursor = (cursor, state) :: pagesRead view later next := by
  rw [pagesRead]
  simp only [if_neg unfinished, accepted]

theorem mem_pagesRead {view : S → OrderedMap K V} {cursor : ScanCursor K V}
    {page : ScanCursor K V × S} (listed : page ∈ pagesRead view attempts cursor) : .reads page.2 ∈ attempts := by
  induction attempts generalizing cursor with
  | nil =>
    unfold pagesRead at listed
    split at listed <;> cases listed
  | cons attempt later ih =>
    unfold pagesRead at listed
    split at listed
    · cases listed
    · cases attempt with
      | retryable failure => exact List.mem_cons_of_mem _ (ih listed)
      | deadlineReached => cases listed
      | fails failure => cases listed
      | reads state =>
        simp only at listed
        split at listed
        · cases listed
        · rcases List.mem_cons.mp listed with rfl | rest
          · exact List.mem_cons_self
          · exact List.mem_cons_of_mem _ (ih rest)

theorem scanPages_readBy {view : S → OrderedMap K V} {cursor : ScanCursor K V}
    {retries : Nat} {items : List (K × V)} (proper : cursor.Proper)
    (finished : scanPages view attempts cursor retries = some (.ok items)) :
    ReadBy view (pagesRead view attempts cursor) cursor items := by
  induction attempts generalizing cursor retries with
  | nil =>
    unfold scanPages at finished
    split at finished
    · rename_i isDone
      cases finished
      rw [pagesRead_done isDone]
      exact ReadBy.done proper isDone
    · cases finished
  | cons attempt later ih =>
    unfold scanPages at finished
    split at finished
    · rename_i isDone
      cases finished
      rw [pagesRead_done isDone]
      exact ReadBy.done proper isDone
    · rename_i unfinished
      cases attempt with
      | deadlineReached => cases finished
      | fails failure => cases finished
      | retryable failure =>
        rw [pagesRead_retryable unfinished]
        simp only at finished
        split at finished
        · cases finished
        · exact ih proper finished
      | reads state =>
        obtain ⟨next, accepted, nextProper, sameRange, sameDirection, extended, rest⟩ :=
          ScanCursor.acceptPage_readPage proper (view state)
        simp only [accepted] at finished
        rw [pagesRead_reads unfinished accepted]
        exact ReadBy.page proper (Bool.eq_false_iff.mpr unfinished) sameRange sameDirection extended rest
          (ih nextProper finished)

/-- A finished scan without limit returns the range as one state has it if and only if that state agrees, on the keys
each page covers, with the state the page was read from. -/
theorem scanPages_eq_rangeEntries_iff {view : S → OrderedMap K V}
    {direction : RangeDirection} {pageSize retries : Nat} {cursor : ScanCursor K V}
    {items : List (K × V)} (created : ScanCursor.tryNew inRange direction pageSize none = .ok cursor)
    (finished : scanPages view attempts cursor retries = some (.ok items)) (map : OrderedMap K V) :
    items = map.rangeEntries direction inRange ↔ ∀ page ∈ pagesRead view attempts cursor,
      ∀ key, page.1.Covers (view page.2) key → (view page.2).get? key = map.get? key := by
  obtain ⟨proper, sameRange, sameDirection, noItems, pending⟩ := ScanCursor.tryNew_proper created
  have scan := scanPages_readBy proper finished
  constructor
  · intro same page listed key covers
    have inside : inRange key = true := by
      rw [← sameRange, ← scan.ranged page listed]
      exact covers.1.1
    ext value
    have read := scan.entries page listed key covers value
    rw [same, OrderedMap.mem_rangeEntries, and_iff_left inside] at read
    exact read.symm
  · intro agree
    have sorted := scan.sorted
    rw [sameDirection] at sorted
    refine List.Pairwise.eq_of_mem_iff sorted (map.rangeEntries_sorted direction inRange) fun entry => ?_
    rw [OrderedMap.mem_rangeEntries]
    constructor
    · intro member
      have inside : inRange entry.1 = true := sameRange ▸ scan.inside entry member
      obtain ⟨page, listed, covers⟩ := scan.covered entry.1 (pending entry.1 inside)
      rw [← agree page listed entry.1 covers]
      exact ⟨(scan.entries page listed entry.1 covers entry.2).mp member, inside⟩
    · rintro ⟨found, inside⟩
      obtain ⟨page, listed, covers⟩ := scan.covered entry.1 (pending entry.1 inside)
      rw [← agree page listed entry.1 covers] at found
      exact (scan.entries page listed entry.1 covers entry.2).mpr found

end KeyedStore
