import DucklakeCatalog.Wire.RangePages

/-! The bounded scan over transactions that may fail and be repeated. -/
namespace DucklakeCatalog.Wire

open ByteCodec KeyedStore

inductive FoundationDbErrorClass where
  | maybeCommitted
  | retryableNotCommitted
  | retryable
  | nonRetryable
  deriving DecidableEq

inductive SyncScanError where
  | foundationDb (code : Int) (message : String) (errorClass : FoundationDbErrorClass)
  | foundationDbRetryExhausted (operation : String) (attempts : Nat) (code : Int) (message : String)
      (errorClass : FoundationDbErrorClass)
  | deadlineExhausted
  | catalog (error : CatalogError)

abbrev SyncScanResult := Except SyncScanError

def SyncScanError.invalidMutation (message : String) : SyncScanError := .catalog (.invalidMutation message)

def isRetryableFdbReadError : SyncScanError → Bool
  | .foundationDb _ _ .retryableNotCommitted | .foundationDb _ _ .retryable => true
  | _ => false

/-! ## The budget -/

/-- What a scan may spend, in nanoseconds and in repeated reads. -/
structure SyncFdbScanBudget where
  operation : String
  deadline : Nat
  retriesRemaining : Nat
  attempts : Nat := 0

def scanRetryExhausted (operation : String) (attempts : Nat) : SyncScanError → SyncScanError
  | .foundationDb code message errorClass =>
    .foundationDbRetryExhausted operation attempts code message errorClass
  | other => other

namespace SyncFdbScanBudget

def timeoutMs : Nat := 5000

/-- The time left for one attempt in milliseconds, at least one of them. -/
def beginAttempt (budget : SyncFdbScanBudget) (now : Nat) : SyncScanResult (Nat × SyncFdbScanBudget) :=
  let remaining := budget.deadline - now
  if remaining = 0 then .error .deadlineExhausted
  else .ok (max (min (remaining / 1000000) timeoutMs) 1, { budget with attempts := saturatingAdd budget.attempts 1 })

def recordRetryableFailure (budget : SyncFdbScanBudget) (error : SyncScanError) : SyncScanResult SyncFdbScanBudget :=
  if budget.retriesRemaining = 0 then .error (scanRetryExhausted budget.operation budget.attempts error)
  else .ok { budget with retriesRemaining := budget.retriesRemaining - 1 }

end SyncFdbScanBudget

/-! ## The cursor -/

structure SyncFdbScanCursor where
  start : Bytes
  stop : Bytes
  direction : RangeDirection
  pageSize : Nat
  /-- Items still wanted; `none` without a limit. -/
  remaining : Option Nat
  done : Bool
  items : List RangeItem

def keyAfter (key : Bytes) : Bytes := key ++ [0]

theorem keyAfter_follows : Follows keyAfter := keyAfterScanItem_follows

namespace SyncFdbScanCursor

/-- `usize::MAX` as the limit is no limit. -/
def tryNewWithLimit (start stop : Bytes) (direction : RangeDirection) (pageSize limit : Nat) :
    SyncScanResult SyncFdbScanCursor :=
  if pageSize = 0 then .error (.invalidMutation "bounded sync scan page size must be greater than zero")
  else if stop < start then .error (.invalidMutation "bounded sync scan start must precede its end")
  else .ok
    { start, stop, direction, pageSize
      remaining := if limit = u64Max then none else some limit
      done := decide (limit = 0) || decide (start = stop)
      items := [] }

def wantsPage (cursor : SyncFdbScanCursor) : Bool := !cursor.done

/-- The size asked for, which the limit may cut. -/
def requested (cursor : SyncFdbScanCursor) : Nat := cursor.remaining.elim cursor.pageSize (min · cursor.pageSize)

def keyIsInRange (cursor : SyncFdbScanCursor) (key : Bytes) : Prop := cursor.start ≤ key ∧ key < cursor.stop

instance (cursor : SyncFdbScanCursor) (key : Bytes) : Decidable (cursor.keyIsInRange key) :=
  inferInstanceAs (Decidable (_ ∧ _))

/-- What lies between the bounds. -/
def rest (store : OrderedMap Bytes Bytes) (cursor : SyncFdbScanCursor) : List RangeItem :=
  store.range cursor.start cursor.stop cursor.direction

/-- The bounds close in on what has not been read. -/
def Advances (cursor : SyncFdbScanCursor) (lastKey : Bytes) : Prop :=
  match cursor.direction with
  | .forward => cursor.start < keyAfter lastKey
  | .reverse => lastKey < cursor.stop

instance (cursor : SyncFdbScanCursor) (lastKey : Bytes) : Decidable (cursor.Advances lastKey) := by
  rw [Advances]
  cases cursor.direction
  · exact inferInstanceAs (Decidable (cursor.start < keyAfter lastKey))
  · exact inferInstanceAs (Decidable (lastKey < cursor.stop))

/-- The cursor behind a page that was taken. -/
def advance (cursor : SyncFdbScanCursor) (page : List RangeItem) (lastKey : Bytes) : SyncFdbScanCursor :=
  let shouldContinue := decide (page.length = cursor.requested) && cursor.remaining.all (page.length < ·)
  let bounds := cursor.direction.continuation keyAfter cursor.start cursor.stop lastKey
  { cursor with
    start := bounds.1
    stop := bounds.2
    remaining := cursor.remaining.map (· - page.length)
    items := cursor.items ++ page
    done := !shouldContinue }

def acceptPage (cursor : SyncFdbScanCursor) (page : List RangeItem) : SyncScanResult SyncFdbScanCursor :=
  match page.getLast? with
  | none => .ok { cursor with done := true }
  | some last =>
    if cursor.requested < page.length ∨ ¬ (page.IsChain fun left right => cursor.direction.Before left.1 right.1) ∨
        ¬ ∀ item ∈ page, cursor.keyIsInRange item.1 then
      .error (.invalidMutation "foundationdb sync scan page violated its ordering or size bound")
    else if ¬ ∀ previous ∈ cursor.items.getLast?, ∀ first ∈ page.head?,
        cursor.direction.Before previous.1 first.1 then
      .error (.invalidMutation "foundationdb sync scan continuation was not ordered")
    else if ¬ cursor.Advances last.1 then
      .error (.invalidMutation "foundationdb sync scan continuation did not advance")
    else .ok (cursor.advance page last.1)

end SyncFdbScanCursor

/-! ## The loop -/

/-- Reads pages until the cursor wants no more; one unit of fuel for each attempt. The
clock and the outcome of a read may differ from one attempt to the next. -/
def scanPages (readPage : Nat → SyncFdbScanCursor → Nat → Nat → SyncScanResult (List RangeItem)) (now : Nat → Nat) :
    Nat → Nat → SyncFdbScanCursor → SyncFdbScanBudget → Option (SyncScanResult (List RangeItem))
  | 0, _, _, _ => none
  | fuel + 1, attempt, cursor, budget =>
    if cursor.wantsPage then
      match budget.beginAttempt (now attempt) with
      | .error failure => some (.error failure)
      | .ok (timeout, budget) =>
        match readPage attempt cursor cursor.requested timeout with
        | .ok page =>
          match cursor.acceptPage page with
          | .error failure => some (.error failure)
          | .ok cursor => scanPages readPage now fuel (attempt + 1) cursor budget
        | .error failure =>
          if isRetryableFdbReadError failure then
            match budget.recordRetryableFailure failure with
            | .error failure => some (.error failure)
            | .ok budget => scanPages readPage now fuel (attempt + 1) cursor budget
          else some (.error failure)
    else some (.ok cursor.items)

/-! ## Failures within the budget -/

/-- Which attempts fail, and when each is made: with retryable errors only, no more of them
than the budget repeats, and before its deadline. -/
structure FailurePattern (budget : SyncFdbScanBudget) where
  failure : Nat → Option SyncScanError
  now : Nat → Nat
  retryable : ∀ attempt error, failure attempt = some error → isRetryableFdbReadError error = true
  within : ∀ count, (List.range' 0 count).countP (fun attempt => (failure attempt).isSome) ≤ budget.retriesRemaining
  inTime : ∀ attempt, now attempt < budget.deadline

/-- An attempt that does not fail answers the first items of the rest of the range. -/
def FailurePattern.readPage {budget : SyncFdbScanBudget} (pattern : FailurePattern budget)
    (store : OrderedMap Bytes Bytes) (attempt : Nat) (cursor : SyncFdbScanCursor) (pageSize _timeout : Nat) :
    SyncScanResult (List RangeItem) :=
  match pattern.failure attempt with
  | some error => .error error
  | none => .ok ((cursor.rest store).take pageSize)

/-- No more than `retries` of the attempts from `attempt` on fail. -/
def FailsAtMost (failure : Nat → Option SyncScanError) (attempt retries : Nat) : Prop :=
  ∀ count, (List.range' attempt count).countP (fun attempt => (failure attempt).isSome) ≤ retries

theorem FailsAtMost.afterSuccess {failure : Nat → Option SyncScanError} {attempt retries : Nat}
    (bounded : FailsAtMost failure attempt retries) (succeeds : failure attempt = none) :
    FailsAtMost failure (attempt + 1) retries := by
  intro count
  have longer := bounded (count + 1)
  rw [List.range'_succ, List.countP_cons] at longer
  simpa [succeeds] using longer

theorem FailsAtMost.afterFailure {failure : Nat → Option SyncScanError} {attempt retries : Nat} {error : SyncScanError}
    (bounded : FailsAtMost failure attempt retries) (fails : failure attempt = some error) :
    0 < retries ∧ FailsAtMost failure (attempt + 1) (retries - 1) := by
  have counted (count : Nat) : (List.range' (attempt + 1) count).countP (fun attempt => (failure attempt).isSome) + 1 ≤
      retries := by
    have longer := bounded (count + 1)
    rw [List.range'_succ, List.countP_cons] at longer
    simpa [fails] using longer
  constructor
  · exact (Nat.succ_pos _).trans_le (counted 0)
  · intro count
    have fewer := counted count
    omega

/-! ## What the scan returns -/

namespace SyncFdbScanCursor

variable {store : OrderedMap Bytes Bytes} {cursor : SyncFdbScanCursor}

/-- The items the scan has still to add. -/
def wanted (store : OrderedMap Bytes Bytes) (cursor : SyncFdbScanCursor) : List RangeItem :=
  if cursor.done then [] else cursor.remaining.elim (cursor.rest store) ((cursor.rest store).take ·)

/-- A cursor that asks for something while it is not done, behind the items it has. -/
structure Proper (cursor : SyncFdbScanCursor) : Prop where
  pageSize : 0 < cursor.pageSize
  remaining : cursor.done = false → cursor.remaining ≠ some 0
  ahead : ∀ previous ∈ cursor.items.getLast?, ∀ key, cursor.keyIsInRange key → cursor.direction.Before previous.1 key

theorem tryNewWithLimit_proper {start stop : Bytes} {direction : RangeDirection} {pageSize limit : Nat}
    (created : tryNewWithLimit start stop direction pageSize limit = .ok cursor) :
    cursor.Proper ∧ cursor.items = [] ∧ (store.entries.length ≤ u64Max →
      cursor.wanted store = (store.range start stop direction).take limit) := by
  simp only [tryNewWithLimit] at created
  split_ifs at created with empty reversed unlimited
  · obtain rfl := Except.ok.inj created
    refine ⟨⟨Nat.pos_of_ne_zero empty, fun _ => by simp, by simp⟩, rfl, fun counted => ?_⟩
    have short := (store.length_range_le start stop direction).trans counted
    rw [unlimited, List.take_of_length_le short, wanted]
    split_ifs with finished
    · have same : start = stop := by simpa [unlimited, u64Max] using finished
      rw [store.range_eq_nil same.ge]
    · rfl
  · obtain rfl := Except.ok.inj created
    refine ⟨⟨Nat.pos_of_ne_zero empty, fun unfinished => ?_, by simp⟩, rfl, fun _ => ?_⟩
    · have positive : limit ≠ 0 := fun none => by simp [none] at unfinished
      simpa using positive
    · rw [wanted]
      split_ifs with finished
      · rcases Bool.or_eq_true _ _ |>.mp finished with none | same
        · rw [of_decide_eq_true none, List.take_zero]
        · rw [store.range_eq_nil (of_decide_eq_true same).ge, List.take_nil]
      · rfl

theorem Proper.requested_pos (proper : cursor.Proper) (unfinished : cursor.done = false) : 0 < cursor.requested := by
  have some := proper.remaining unfinished
  cases left : cursor.remaining with
  | none => simpa [requested, left] using proper.pageSize
  | some count =>
    have positive : 0 < count := Nat.pos_of_ne_zero fun none => some (by rw [left, none])
    simpa [requested, left] using ⟨positive, proper.pageSize⟩

/-- What the cursor wants begins with the page that is read for it. -/
theorem wanted_eq (unfinished : cursor.done = false) {page later : List RangeItem} {last : RangeItem}
    (split : cursor.rest store = page ++ later) (read : page = (cursor.rest store).take cursor.requested)
    (ends : page.getLast? = some last) :
    cursor.wanted store = page ++ (cursor.advance page last.1).wanted store := by
  have goesOn : (cursor.advance page last.1).rest store = later :=
    OrderedMap.range_continuation keyAfter_follows split ends
  have length : page.length = min cursor.requested (cursor.rest store).length := by
    rw [read, List.length_take]
  have whole : (cursor.rest store).length = page.length + later.length := by
    rw [split, List.length_append]
  rw [wanted, wanted, goesOn, unfinished]
  cases left : cursor.remaining with
  | none =>
    by_cases full : page.length = cursor.requested
    · simp [advance, left, full, split]
    · have nothing : later = [] := List.length_eq_zero_iff.mp (by omega)
      simp [advance, left, full, split, nothing]
  | some count =>
    have asked : cursor.requested = min count cursor.pageSize := by rw [requested, left]; rfl
    have fits : page.length ≤ count := by omega
    have divided : (cursor.rest store).take count = page ++ later.take (count - page.length) := by
      rw [split, List.take_append, List.take_of_length_le fits]
    by_cases full : page.length = cursor.requested
    · by_cases more : page.length < count
      · rw [full] at more
        simp [advance, left, full, divided, more]
      · have none : count - page.length = 0 := by omega
        rw [full] at more none
        simp [advance, left, full, divided, more, none]
    · have nothing : later = [] := List.length_eq_zero_iff.mp (by omega)
      simp [advance, left, full, divided, nothing]

/-- A page that was read from the store passes every check. -/
theorem acceptPage_read (proper : cursor.Proper) {page : List RangeItem} {last : RangeItem}
    (read : page = (cursor.rest store).take cursor.requested) (ends : page.getLast? = some last) :
    cursor.acceptPage page = .ok (cursor.advance page last.1) ∧ (cursor.advance page last.1).Proper := by
  have listed {item : RangeItem} (member : item ∈ page) : cursor.keyIsInRange item.1 := by
    rw [read] at member
    exact (OrderedMap.mem_range.mp (List.mem_of_mem_take member)).2
  have sorted : page.Pairwise fun left right => cursor.direction.Before left.1 right.1 := by
    rw [read]
    exact (store.range_sorted _ _ _).sublist (List.take_sublist _ _)
  have short : ¬ cursor.requested < page.length := by
    rw [read]
    exact (List.length_take_le _ _).not_gt
  have lastInside := listed (List.mem_of_getLast? ends)
  have advances : cursor.Advances last.1 := by
    rw [Advances]
    cases cursor.direction
    · exact lastInside.1.trans_lt ((keyAfter_follows last.1 _).mp le_rfl)
    · exact lastInside.2
  have continued : ∀ previous ∈ cursor.items.getLast?, ∀ first ∈ page.head?,
      cursor.direction.Before previous.1 first.1 :=
    fun previous isLast first isFirst => proper.ahead previous isLast first.1 (listed (List.mem_of_mem_head? isFirst))
  constructor
  · have bounded : ¬ (cursor.requested < page.length ∨
        ¬ (page.IsChain fun left right => cursor.direction.Before left.1 right.1) ∨
          ¬ ∀ item ∈ page, cursor.keyIsInRange item.1) := by
      rintro (long | unsorted | outside)
      · exact short long
      · exact unsorted sorted.isChain
      · exact outside fun item member => listed member
    rw [acceptPage, ends]
    simp only [if_neg bounded, if_neg (not_not.mpr continued), if_neg (not_not.mpr advances)]
  · refine ⟨proper.pageSize, ?_, ?_⟩
    · intro unfinished
      cases left : cursor.remaining with
      | none => simp [advance, left]
      | some count =>
        have more : page.length < count := by
          simp [advance, left] at unfinished
          exact unfinished.2
        simp [advance, left]
        omega
    · intro previous isLast key inside
      obtain ⟨front, same⟩ := List.getLast?_eq_some_iff.mp ends
      have isPrevious : previous = last := by simpa [advance, same] using isLast.symm
      rw [isPrevious]
      change cursor.direction.Before last.1 key
      simp only [keyIsInRange, advance] at inside
      generalize cursor.direction = direction at inside ⊢
      cases direction
      · exact (keyAfter_follows last.1 key).mp inside.1
      · exact inside.2

end SyncFdbScanCursor

/-- Enough attempts for the failures to come and a page for each item. -/
theorem scanPages_eq {budget : SyncFdbScanBudget} (pattern : FailurePattern budget) (store : OrderedMap Bytes Bytes)
    (fuel attempt : Nat) {cursor : SyncFdbScanCursor} {left : SyncFdbScanBudget} (proper : cursor.Proper)
    (deadline : left.deadline = budget.deadline)
    (bounded : FailsAtMost pattern.failure attempt left.retriesRemaining)
    (enough : left.retriesRemaining + (cursor.wanted store).length + (if cursor.done then 0 else 1) < fuel) :
    scanPages (pattern.readPage store) pattern.now fuel attempt cursor left =
      some (.ok (cursor.items ++ cursor.wanted store)) := by
  induction fuel generalizing attempt cursor left with
  | zero => omega
  | succ fuel ih =>
    rw [scanPages]
    by_cases finished : cursor.done = true
    · simp [SyncFdbScanCursor.wantsPage, SyncFdbScanCursor.wanted, finished]
    · have unfinished : cursor.done = false := by simpa using finished
      have wants : cursor.wantsPage = true := by simp [SyncFdbScanCursor.wantsPage, unfinished]
      have time : left.deadline - pattern.now attempt ≠ 0 := by
        have early := pattern.inTime attempt
        omega
      simp only [if_pos wants, SyncFdbScanBudget.beginAttempt, if_neg time]
      cases outcome : pattern.failure attempt with
      | some error =>
        obtain ⟨positive, fewer⟩ := bounded.afterFailure outcome
        have retryable := pattern.retryable attempt error outcome
        simp only [FailurePattern.readPage, outcome, if_pos retryable, SyncFdbScanBudget.recordRetryableFailure,
          if_neg positive.ne']
        refine ih (attempt + 1) proper deadline fewer ?_
        simp only
        omega
      | none =>
        have later := bounded.afterSuccess outcome
        simp only [unfinished, Bool.false_eq_true, if_false] at enough
        simp only [FailurePattern.readPage, outcome]
        cases ends : ((cursor.rest store).take cursor.requested).getLast? with
        | none =>
          -- only an empty rest gives an empty page
          have empty : cursor.rest store = [] := by
            rcases List.take_eq_nil_iff.mp (List.getLast?_eq_none_iff.mp ends) with nothing | nothing
            · exact absurd nothing (proper.requested_pos unfinished).ne'
            · exact nothing
          have nothing : cursor.wanted store = [] := by
            rw [SyncFdbScanCursor.wanted, empty]
            cases cursor.remaining <;> simp
          have closed : SyncFdbScanCursor.wanted store { cursor with done := true } = [] := if_pos rfl
          have accepted : cursor.acceptPage ((cursor.rest store).take cursor.requested) =
              .ok { cursor with done := true } := by rw [SyncFdbScanCursor.acceptPage, ends]
          have properNext : SyncFdbScanCursor.Proper { cursor with done := true } :=
            ⟨proper.pageSize, nofun, proper.ahead⟩
          have rest := @ih (attempt + 1) _ { left with attempts := saturatingAdd left.attempts 1 } properNext deadline
            later (by simp only [closed, List.length_nil, if_true]; omega)
          simp only [accepted]
          rw [rest, closed, nothing]
        | some last =>
          obtain ⟨accepted, properNext⟩ := SyncFdbScanCursor.acceptPage_read proper rfl ends
          have divided := SyncFdbScanCursor.wanted_eq unfinished (List.take_append_drop _ _).symm rfl ends
          have nonempty : 0 < ((cursor.rest store).take cursor.requested).length :=
            List.length_pos_of_mem (List.mem_of_getLast? ends)
          rw [divided, List.length_append] at enough
          have rest := @ih (attempt + 1) _ { left with attempts := saturatingAdd left.attempts 1 } properNext deadline
            later (by simp only; split_ifs <;> omega)
          simp only [accepted]
          rw [rest, divided, ← List.append_assoc]
          rfl

/-- Paged scans visit and return the first items of the range, in its order and each once,
however the pages fall and whichever attempts fail. -/
theorem pagedScans_exact (store : CountedMap Bytes Bytes u64Max) (start stop : Bytes) (direction : RangeDirection) :
    (∀ {σ : Type} (backend : PagedBackend store.map CatalogError) (visit : σ → RangeItem → CatalogResult σ)
        (maxItems : Option Nat) (seen : σ), ∃ enough, ∀ fuel ≥ enough,
      let range := store.map.range start stop direction
      let items := maxItems.elim range fun limit => range.take (limit + 1)
      scanRangePages backend.scanRange direction visit start stop maxItems seen fuel =
        some ((items.foldlM visit seen).map fun seen => (items.length, seen))) ∧
    ∀ (pageSize limit : Nat) (cursor : SyncFdbScanCursor) (budget : SyncFdbScanBudget)
        (pattern : FailurePattern budget),
      SyncFdbScanCursor.tryNewWithLimit start stop direction pageSize limit = .ok cursor →
        ∃ enough, ∀ fuel ≥ enough, scanPages (pattern.readPage store.map) pattern.now fuel 0 cursor budget =
          some (.ok ((store.map.range start stop direction).take limit)) := by
  constructor
  · intro σ backend visit maxItems seen
    refine ⟨(store.map.range start stop direction).length + 1, ?_⟩
    intro fuel enough
    exact scanRangePages_eq backend direction visit start stop maxItems seen fuel enough
  · intro pageSize limit cursor budget pattern created
    obtain ⟨proper, empty, wanted⟩ := SyncFdbScanCursor.tryNewWithLimit_proper created
    refine ⟨budget.retriesRemaining + (cursor.wanted store.map).length + 2, ?_⟩
    intro fuel enough
    rw [scanPages_eq pattern store.map fuel 0 proper rfl pattern.within (by split_ifs <;> omega), empty,
      wanted store.counted, List.nil_append]

/-- Three items of one byte each. -/
def threeItems : CountedMap Bytes Bytes u64Max :=
  ⟨((OrderedMap.empty.insert [3] [30]).insert [2] [20]).insert [1] [10], by decide⟩

/-- The second attempt finds its transaction too old. -/
def secondAttemptFails : FailurePattern { operation := "scan_range", deadline := 1, retriesRemaining := 1 } where
  failure attempt := if attempt = 1 then some (.foundationDb 1007 "transaction too old" .retryable) else none
  now _ := 0
  retryable attempt error fails := by
    split_ifs at fails
    rw [← Option.some.inj fails]
    rfl
  within count := by
    have once := List.nodup_iff_count_le_one.mp (List.nodup_range' (s := 0) (n := count)) 1
    refine le_trans (List.countP_mono_left ?_) once
    intro attempt _ fails
    by_cases second : attempt = 1
    · simp [second]
    · simp [second] at fails
  inTime _ := Nat.zero_lt_one

theorem pagedScans_exact_threeItems :
    ∃ enough, ∀ fuel ≥ enough, ∃ cursor,
      SyncFdbScanCursor.tryNewWithLimit [2] [255] .reverse 1 2 = .ok cursor ∧
        scanPages (secondAttemptFails.readPage threeItems.map) secondAttemptFails.now fuel 0 cursor
          { operation := "scan_range", deadline := 1, retriesRemaining := 1 } =
            some (.ok [([3], [30]), ([2], [20])]) := by
  obtain ⟨enough, returned⟩ := (pagedScans_exact threeItems [2] [255] .reverse).2 1 2 _ _ secondAttemptFails rfl
  exact ⟨enough, fun fuel more => ⟨_, rfl, returned fuel more⟩⟩

end DucklakeCatalog.Wire
