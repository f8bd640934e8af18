import DucklakeCatalog.File.Listing
import Mathlib.Data.Finset.Max

/-! What the suppression of backfilled sources keeps of the known row-id ranges. A row is
dropped for any replacement that covers it, whether or not that replacement is kept. -/
namespace DucklakeCatalog

open KeyedStore

/-- The partition values of the listed files, by which files of unknown ranges are compared. -/
def suppressionValues (kv : CatalogKv) (rows : List DataFileRow) : List FilePartitionValueRow :=
  listFilePartitionValuesForDataFiles kv ((rows.map DataFileRow.dataFileId).dedup.insertionSort (· ≤ ·))

/-- The replacement takes the row out of the listing. -/
def Suppresses (kv : CatalogKv) (rows : List DataFileRow) (replacement row : DataFileRow) : Prop :=
  isBackfilledReplacementFile replacement = true ∧ row.dataFileId ≠ replacement.dataFileId ∧
    replacementCovers (suppressionValues kv rows) replacement row = true

/-- Nothing that is dropped with a known range is lost, and no two replacements drop each other. -/
structure NeverLosesRows (kv : CatalogKv) (rows : List DataFileRow) : Prop where
  covered : ∀ row ∈ rows, row.rowIdStartKnown = true → row ∉ withoutBackfilledSourceDuplicates kv rows →
    ∃ kept ∈ withoutBackfilledSourceDuplicates kv rows,
      kept.tableId = row.tableId ∧ coversRowIdRange kept row = true
  oneSided : ∀ left ∈ rows, ∀ right ∈ rows, ¬ (Suppresses kv rows left right ∧ Suppresses kv rows right left)

/-! ## The condition -/

def SameRange (left right : DataFileRow) : Prop :=
  left.rowIdStart = right.rowIdStart ∧ left.rowIdEnd = right.rowIdEnd

/-- No listed range of the table properly contains the range of the row. -/
structure WidestRange (rows : List DataFileRow) (row : DataFileRow) : Prop where
  listed : row ∈ rows
  known : row.rowIdStartKnown = true
  widest : ∀ other ∈ rows, other.tableId = row.tableId → coversRowIdRange other row = true → SameRange other row

/-- A replacement of the table with the same known range, begun early enough to carry the row. -/
structure SuppressesSameRange (replacement row : DataFileRow) : Prop where
  backfilled : isBackfilledReplacementFile replacement = true
  otherFile : row.dataFileId ≠ replacement.dataFileId
  table : row.tableId = replacement.tableId
  nonempty : row.recordCount ≠ 0
  carried : row.validity.beginOrder ≤ replacement.maxCoveredOrder
  known : replacement.rowIdStartKnown = true ∧ row.rowIdStartKnown = true
  same : SameRange replacement row
  samePath : partitionPathsAreKnownAndDifferent replacement.path row.path = false

/-- A larger replacement of the same partition whose own row ids are not known. -/
structure SuppressesByPartition (values : List FilePartitionValueRow) (replacement row : DataFileRow) : Prop where
  backfilled : isBackfilledReplacementFile replacement = true
  otherFile : row.dataFileId ≠ replacement.dataFileId
  table : row.tableId = replacement.tableId
  nonempty : row.recordCount ≠ 0
  carried : row.validity.beginOrder ≤ replacement.maxCoveredOrder
  unknown : replacement.rowIdStartKnown = false
  larger : row.recordCount < replacement.recordCount
  begun : replacement.validity.beginOrder ≤ row.validity.beginOrder
  partition : sameNonEmptyKey values replacement.dataFileId row.dataFileId = true

/-- Each widest known range has a row that neither kind of replacement takes out. -/
def KeepsWidestRanges (kv : CatalogKv) (rows : List DataFileRow) : Prop :=
  ∀ row, WidestRange rows row → ∃ other ∈ rows, other.tableId = row.tableId ∧ other.rowIdStartKnown = true ∧
    SameRange other row ∧ ∀ replacement ∈ rows, ¬ SuppressesSameRange replacement other ∧
      ¬ SuppressesByPartition (suppressionValues kv rows) replacement other

/-- No two replacements of one known range carry each other's begin. -/
def NoRangeTwice (rows : List DataFileRow) : Prop :=
  ∀ left ∈ rows, ∀ right ∈ rows, ¬ (SuppressesSameRange left right ∧ SuppressesSameRange right left)

/-! ## What is dropped -/

variable {row : DataFileRow} {rows : List DataFileRow}
variable {values : List FilePartitionValueRow} {replacement outer inner left right : DataFileRow} {kv : CatalogKv}

theorem replacementCovers_congr {others : List FilePartitionValueRow}
    (apart : mightCoverByPartition replacement row = false) :
    replacementCovers values replacement row = replacementCovers others replacement row := by
  unfold replacementCovers
  split_ifs with first second third fourth fifth sixth
  · rfl
  · rfl
  · rfl
  · rfl
  · rfl
  · rfl
  · exfalso
    simp only [not_or, not_not, not_lt, not_le, not_and, Bool.not_eq_true] at first second third fourth fifth sixth
    have might : mightCoverByPartition replacement row = true := by
      have unknown : (!replacement.rowIdStartKnown || !row.rowIdStartKnown) = true := by
        cases left : replacement.rowIdStartKnown with
        | false => rfl
        | true =>
          rw [fourth left]
          rfl
      simp [mightCoverByPartition, first, second, third, fifth, sixth, unknown]
    rw [might] at apart
    cases apart

/-- The values are not loaded only where no pair would have asked for them. -/
theorem replacementCovers_loaded {kv : CatalogKv} {rows : List DataFileRow} {replacement row : DataFileRow}
    (listed : replacement ∈ rows) (backfilled : isBackfilledReplacementFile replacement = true)
    (member : row ∈ rows) (other : row.dataFileId ≠ replacement.dataFileId) :
    replacementCovers
        (if replacementsNeedPartitionValues (rows.filter isBackfilledReplacementFile) rows then
          suppressionValues kv rows
        else []) replacement row =
      replacementCovers (suppressionValues kv rows) replacement row := by
  by_cases needed : replacementsNeedPartitionValues (rows.filter isBackfilledReplacementFile) rows = true
  · rw [if_pos needed]
  · rw [if_neg needed]
    apply replacementCovers_congr
    by_contra might
    apply needed
    refine List.any_eq_true.mpr ⟨replacement, List.mem_filter.mpr ⟨listed, backfilled⟩, ?_⟩
    refine List.any_eq_true.mpr ⟨row, member, ?_⟩
    rw [Bool.and_eq_true]
    exact ⟨decide_eq_true other, Bool.not_eq_false _ ▸ might⟩

theorem mem_withoutBackfilledSourceDuplicates :
    row ∈ withoutBackfilledSourceDuplicates kv rows ↔
      row ∈ rows ∧ ∀ replacement ∈ rows, ¬ Suppresses kv rows replacement row := by
  rw [withoutBackfilledSourceDuplicates, List.mem_filter]
  apply and_congr_right
  intro member
  rw [List.all_eq_true]
  constructor
  · intro kept replacement listed suppressed
    obtain ⟨backfilled, other, covers⟩ := suppressed
    have decided := kept replacement (List.mem_filter.mpr ⟨listed, backfilled⟩)
    have loaded := @replacementCovers_loaded kv rows replacement row listed backfilled member other
    rw [suppressionValues] at loaded covers
    rw [loaded, covers, decide_eq_false other] at decided
    cases decided
  · intro unsuppressed replacement filtered
    obtain ⟨listed, backfilled⟩ := List.mem_filter.mp filtered
    by_cases same : row.dataFileId = replacement.dataFileId
    · rw [decide_eq_true same, Bool.true_or]
    · have loaded := @replacementCovers_loaded kv rows replacement row listed backfilled member same
      rw [suppressionValues] at loaded
      rw [loaded, Bool.or_eq_true]
      right
      rw [Bool.not_eq_true', Bool.eq_false_iff]
      intro covers
      exact unsuppressed replacement listed ⟨backfilled, same, covers⟩

theorem coversRowIdRange_iff :
    coversRowIdRange outer inner = true ↔ (outer.rowIdStartKnown = true ∧ inner.rowIdStartKnown = true) ∧
      outer.rowIdStart ≤ inner.rowIdStart ∧ inner.rowIdEnd ≤ outer.rowIdEnd := by
  simp only [coversRowIdRange, Bool.and_eq_true, decide_eq_true_eq, and_assoc]

/-- A replacement covers a row by its range, or by its partition where a range is unknown. -/
theorem replacementCovers_iff :
    replacementCovers values replacement row = true ↔ (row.tableId = replacement.tableId ∧ row.recordCount ≠ 0 ∧
        row.validity.beginOrder ≤ replacement.maxCoveredOrder) ∧ ((coversRowIdRange replacement row = true ∧
          partitionPathsAreKnownAndDifferent replacement.path row.path = false) ∨
        (¬ (replacement.rowIdStartKnown = true ∧ row.rowIdStartKnown = true) ∧
          row.recordCount < replacement.recordCount ∧ replacement.validity.beginOrder ≤ row.validity.beginOrder ∧
          sameNonEmptyKey values replacement.dataFileId row.dataFileId = true)) := by
  constructor
  · intro covers
    unfold replacementCovers at covers
    split_ifs at covers with apart late within both large early
    · obtain ⟨table, nonempty⟩ := not_or.mp apart
      exact ⟨⟨not_not.mp table, nonempty, not_lt.mp late⟩, Or.inl ⟨within, by simpa using covers⟩⟩
    · obtain ⟨table, nonempty⟩ := not_or.mp apart
      exact ⟨⟨not_not.mp table, nonempty, not_lt.mp late⟩,
        Or.inr ⟨both, not_le.mp large, not_lt.mp early, covers⟩⟩
  · intro either
    obtain ⟨⟨table, nonempty, carried⟩, either⟩ := either
    have apart : ¬ (row.tableId ≠ replacement.tableId ∨ row.recordCount = 0) :=
      not_or.mpr ⟨not_not.mpr table, nonempty⟩
    rw [replacementCovers, if_neg apart, if_neg (not_lt.mpr carried)]
    rcases either with ⟨within, samePath⟩ | ⟨both, larger, begun, partition⟩
    · rw [if_pos within, samePath]
      rfl
    · have notWithin : ¬ coversRowIdRange replacement row = true :=
        fun within => both (coversRowIdRange_iff.mp within).1
      rw [if_neg notWithin, if_neg both, if_neg (not_le.mpr larger), if_neg (not_lt.mpr begun), partition]

/-! ## Ranges -/

theorem coversRowIdRange_trans {middle : DataFileRow} (first : coversRowIdRange outer middle = true)
    (second : coversRowIdRange middle inner = true) : coversRowIdRange outer inner = true := by
  rw [coversRowIdRange_iff] at first second ⊢
  obtain ⟨known, starts, ends⟩ := first
  obtain ⟨knownInner, startsInner, endsInner⟩ := second
  exact ⟨⟨known.1, knownInner.2⟩, starts.trans startsInner, endsInner.trans ends⟩

theorem SameRange.covers (same : SameRange left right)
    (known : left.rowIdStartKnown = true ∧ right.rowIdStartKnown = true) : coversRowIdRange left right = true :=
  coversRowIdRange_iff.mpr ⟨known, same.1.le, same.2.ge⟩

/-- Above every known range of a table lies a widest one. -/
theorem exists_widestRange (member : row ∈ rows) (known : row.rowIdStartKnown = true) :
    ∃ widest, WidestRange rows widest ∧ widest.tableId = row.tableId ∧ coversRowIdRange widest row = true := by
  let above := (rows.filter fun other => decide (other.tableId = row.tableId) && coversRowIdRange other row).toFinset
  have mem_above {other : DataFileRow} :
      other ∈ above ↔ other ∈ rows ∧ other.tableId = row.tableId ∧ coversRowIdRange other row = true := by
    simp [above]
  have itself : row ∈ above := mem_above.mpr ⟨member, rfl, SameRange.covers ⟨rfl, rfl⟩ ⟨known, known⟩⟩
  -- All of these ranges reach down to the row, so their extent is the end and what lies before the row.
  obtain ⟨widest, inside, largest⟩ := above.exists_max_image
    (fun other => other.rowIdEnd + (row.rowIdStart - other.rowIdStart)) ⟨row, itself⟩
  obtain ⟨listed, table, covers⟩ := mem_above.mp inside
  refine ⟨widest, ⟨listed, (coversRowIdRange_iff.mp covers).1.1, ?_⟩, table, covers⟩
  intro other otherListed otherTable wider
  have reaches := mem_above.mpr ⟨otherListed, otherTable.trans table, coversRowIdRange_trans wider covers⟩
  have extent := largest other reaches
  obtain ⟨_, starts, ends⟩ := coversRowIdRange_iff.mp wider
  obtain ⟨_, widestStarts, _⟩ := coversRowIdRange_iff.mp covers
  exact ⟨by omega, by omega⟩

/-- Where no wider range of the table is in play, a row of known range is taken out in two ways. -/
theorem suppresses_iff {kv : CatalogKv} {rows : List DataFileRow} {replacement row : DataFileRow}
    (known : row.rowIdStartKnown = true)
    (widest : row.tableId = replacement.tableId → coversRowIdRange replacement row = true →
      SameRange replacement row) :
    Suppresses kv rows replacement row ↔
      SuppressesSameRange replacement row ∨ SuppressesByPartition (suppressionValues kv rows) replacement row := by
  rw [Suppresses, replacementCovers_iff]
  constructor
  · intro suppressed
    obtain ⟨backfilled, otherFile, ⟨table, nonempty, carried⟩, either⟩ := suppressed
    rcases either with ⟨within, samePath⟩ | ⟨both, larger, begun, partition⟩
    · exact Or.inl ⟨backfilled, otherFile, table, nonempty, carried, (coversRowIdRange_iff.mp within).1,
        widest table within, samePath⟩
    · have unknown : replacement.rowIdStartKnown = false := by
        rw [Bool.eq_false_iff]
        intro replacementKnown
        exact both ⟨replacementKnown, known⟩
      exact Or.inr ⟨backfilled, otherFile, table, nonempty, carried, unknown, larger, begun, partition⟩
  · intro either
    rcases either with same | partition
    · exact ⟨same.backfilled, same.otherFile, ⟨same.table, same.nonempty, same.carried⟩,
        Or.inl ⟨same.same.covers same.known, same.samePath⟩⟩
    · have both : ¬ (replacement.rowIdStartKnown = true ∧ row.rowIdStartKnown = true) := by
        rw [partition.unknown]
        simp
      exact ⟨partition.backfilled, partition.otherFile, ⟨partition.table, partition.nonempty, partition.carried⟩,
        Or.inr ⟨both, partition.larger, partition.begun, partition.partition⟩⟩

theorem WidestRange.of_sameRange {other : DataFileRow} (widest : WidestRange rows row)
    (listed : other ∈ rows) (table : other.tableId = row.tableId) (known : other.rowIdStartKnown = true)
    (same : SameRange other row) : WidestRange rows other := by
  refine ⟨listed, known, ?_⟩
  intro third thirdListed thirdTable wider
  have wide := coversRowIdRange_trans wider (same.covers ⟨known, widest.known⟩)
  have thirdSame := widest.widest third thirdListed (thirdTable.trans table) wide
  exact ⟨thirdSame.1.trans same.1.symm, thirdSame.2.trans same.2.symm⟩

/-- Among the rows of a widest range, being kept means that neither kind of replacement is there. -/
theorem WidestRange.kept_iff {kv : CatalogKv} {rows : List DataFileRow} {row : DataFileRow}
    (widest : WidestRange rows row) :
    row ∈ withoutBackfilledSourceDuplicates kv rows ↔
      ∀ replacement ∈ rows, ¬ SuppressesSameRange replacement row ∧
        ¬ SuppressesByPartition (suppressionValues kv rows) replacement row := by
  rw [mem_withoutBackfilledSourceDuplicates]
  have kinds (replacement : DataFileRow) (listed : replacement ∈ rows) := @suppresses_iff kv rows replacement row
    widest.known fun table wider => widest.widest replacement listed table.symm wider
  constructor
  · intro kept replacement listed
    exact not_or.mp fun either => kept.2 replacement listed ((kinds replacement listed).mpr either)
  · intro neither
    refine ⟨widest.listed, ?_⟩
    intro replacement listed suppressed
    exact not_or.mpr (neither replacement listed) ((kinds replacement listed).mp suppressed)

/-- Two replacements that take each other out have the same known range: by partition only
the larger of two takes out the other. -/
theorem mutual_iff :
    (Suppresses kv rows left right ∧ Suppresses kv rows right left) ↔
      SuppressesSameRange left right ∧ SuppressesSameRange right left := by
  constructor
  · intro both
    obtain ⟨first, second⟩ := both
    rw [Suppresses, replacementCovers_iff] at first second
    obtain ⟨leftBackfilled, rightOther, ⟨rightTable, rightNonempty, rightCarried⟩, first⟩ := first
    obtain ⟨rightBackfilled, leftOther, ⟨leftTable, leftNonempty, leftCarried⟩, second⟩ := second
    rcases first with ⟨leftWider, leftPath⟩ | ⟨unknown, larger, _⟩
    · rcases second with ⟨rightWider, rightPath⟩ | ⟨unknown, _⟩
      · obtain ⟨known, leftStarts, leftEnds⟩ := coversRowIdRange_iff.mp leftWider
        obtain ⟨_, rightStarts, rightEnds⟩ := coversRowIdRange_iff.mp rightWider
        have same : SameRange left right := ⟨le_antisymm leftStarts rightStarts, le_antisymm rightEnds leftEnds⟩
        exact ⟨⟨leftBackfilled, rightOther, rightTable, rightNonempty, rightCarried, known, same, leftPath⟩,
          ⟨rightBackfilled, leftOther, leftTable, leftNonempty, leftCarried, known.symm,
            ⟨same.1.symm, same.2.symm⟩, rightPath⟩⟩
      · exact absurd (coversRowIdRange_iff.mp leftWider).1.symm unknown
    · rcases second with ⟨rightWider, _⟩ | ⟨_, smaller, _⟩
      · exact absurd (coversRowIdRange_iff.mp rightWider).1.symm unknown
      · omega
  · intro both
    exact ⟨(suppresses_iff both.1.known.2 fun _ _ => both.1.same).mpr (Or.inl both.1),
      (suppresses_iff both.2.known.2 fun _ _ => both.2.same).mpr (Or.inl both.2)⟩

/-- Exactly when the suppression loses nothing of a known range: each widest range keeps a
row, and no range is replaced twice by files that carry each other's begin. -/
theorem neverLosesRows_iff (kv : CatalogKv) (rows : List DataFileRow) :
    NeverLosesRows kv rows ↔ KeepsWidestRanges kv rows ∧ NoRangeTwice rows := by
  have oneSided :
      (∀ left ∈ rows, ∀ right ∈ rows, ¬ (Suppresses kv rows left right ∧ Suppresses kv rows right left)) ↔
        NoRangeTwice rows := by
    unfold NoRangeTwice
    simp only [mutual_iff]
  constructor
  · intro never
    refine ⟨?_, oneSided.mp never.oneSided⟩
    intro row widest
    have keeps : ∃ kept ∈ withoutBackfilledSourceDuplicates kv rows,
        kept.tableId = row.tableId ∧ coversRowIdRange kept row = true := by
      by_cases kept : row ∈ withoutBackfilledSourceDuplicates kv rows
      · exact ⟨row, kept, rfl, SameRange.covers ⟨rfl, rfl⟩ ⟨widest.known, widest.known⟩⟩
      · exact never.covered row widest.listed widest.known kept
    obtain ⟨kept, stays, table, wider⟩ := keeps
    have listed := (mem_withoutBackfilledSourceDuplicates.mp stays).1
    have known := (coversRowIdRange_iff.mp wider).1.1
    have same := widest.widest kept listed table wider
    exact ⟨kept, listed, table, known, same, (widest.of_sameRange listed table known same).kept_iff.mp stays⟩
  · intro condition
    refine ⟨?_, oneSided.mpr condition.2⟩
    intro row member known _
    obtain ⟨widest, isWidest, table, wider⟩ := exists_widestRange member known
    obtain ⟨other, listed, otherTable, otherKnown, same, neither⟩ := condition.1 widest isWidest
    have stays := (@WidestRange.kept_iff kv _ _ (isWidest.of_sameRange listed otherTable otherKnown same)).mpr neither
    have wide := coversRowIdRange_trans (same.covers ⟨otherKnown, isWidest.known⟩) wider
    exact ⟨other, stays, otherTable.trans table, wide⟩

/-- Two compactions of the same ten rows, each begun before the newest commit it carries. -/
def rangeTwice : List DataFileRow :=
  [{ dataFileId := 1, tableId := 1, path := "first.parquet", recordCount := 10, fileSizeBytes := 1,
     rowIdStart := 0, rowIdStartKnown := true, maxPartialOrder := some 5, validity := ⟨1, none⟩ },
   { dataFileId := 2, tableId := 1, path := "second.parquet", recordCount := 10, fileSizeBytes := 1,
     rowIdStart := 0, rowIdStartKnown := true, maxPartialOrder := some 5, validity := ⟨2, none⟩ }]

theorem rangeTwice_lost : ¬ NeverLosesRows {} rangeTwice := by
  have lost : withoutBackfilledSourceDuplicates {} rangeTwice = [] := by decide
  intro never
  obtain ⟨kept, stays, _⟩ := never.covered _ (List.mem_cons_self ..) rfl (by rw [lost]; exact List.not_mem_nil)
  rw [lost] at stays
  exact List.not_mem_nil stays

end DucklakeCatalog
