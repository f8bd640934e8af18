import DucklakeCatalog.Fdb.TableFits
import DucklakeCatalog.Run.TableListings

/-! The operations on table metadata, from the state each of them reads to the
writes it commits. -/
namespace DucklakeCatalog.Fdb

open KeyedStore

inductive TableOperation where
  | createTables (seen : FdbStore) (now : Int) (tables : List TableRow)
      (commitRawSnapshot : Option RawSnapshotSequence) (recoveryId : Option CommitAttemptId)
  | editTables (seen : FdbStore) (now : Int) (edit : TableEdit)
  | dropTables (seen : FdbStore) (now : Int) (tableIds : List TableId)
      (commitRawSnapshot : Option RawSnapshotSequence)
  | replaceTables (seen : FdbStore) (now : Int) (tableIds : List TableId) (tables : List TableRow)
      (commitRawSnapshot : Option RawSnapshotSequence) (recoveryId : Option CommitAttemptId)
  | insertInlineRows (read seen : FdbStore) (now : Int) (requests : List RuntimeInlineRows)
      (deletes : List InlineTableDeletePayload) (context : InlineTableCommitContext)

/-- The states an operation reads before its transaction. -/
def TableOperation.reads : TableOperation → List FdbStore
  | .createTables seen _ _ _ _ => [seen]
  | .editTables seen _ _ => [seen]
  | .dropTables seen _ _ _ => [seen]
  | .replaceTables seen _ _ _ _ _ => [seen]
  | .insertInlineRows read seen _ _ _ _ => [read, seen]

def TableOperation.prepare : TableOperation → CatalogResult (Option TableCommit)
  | .createTables seen now tables commitRawSnapshot recoveryId =>
    Fdb.createTables seen now tables commitRawSnapshot recoveryId
  | .editTables seen now edit => Fdb.editTables seen now edit
  | .dropTables seen now tableIds commitRawSnapshot => Fdb.dropTables seen now tableIds commitRawSnapshot
  | .replaceTables seen now tableIds tables commitRawSnapshot recoveryId =>
    Fdb.replaceTables seen now tableIds tables commitRawSnapshot recoveryId
  | .insertInlineRows read seen now requests deletes context =>
    Fdb.insertInlineRows read seen now requests deletes context

/-- The writes of one commit come in an order that works: a new name is not the
name of a table that the commit only replaces later, and new tables differ in id and name. -/
def TableWrite.Precedes : TableWrite → TableWrite → Prop
  | .create earlier, .create later => earlier.tableId ≠ later.tableId ∧ tableNameKey earlier ≠ tableNameKey later
  | .replace _ _ next, .replace _ previous _ =>
    next.tableId ≠ previous.tableId → tableNameKey next ≠ tableNameKey previous
  | _, _ => True

instance : (earlier later : TableWrite) → Decidable (earlier.Precedes later)
  | .create _, .create _ => inferInstanceAs (Decidable (_ ∧ _))
  | .replace _ _ _, .replace _ _ _ => inferInstanceAs (Decidable (_ → _))
  | .create _, .replace _ _ _ => .isTrue trivial
  | .create _, .rewrite _ _ => .isTrue trivial
  | .create _, .drop _ => .isTrue trivial
  | .replace _ _ _, .create _ => .isTrue trivial
  | .replace _ _ _, .rewrite _ _ => .isTrue trivial
  | .replace _ _ _, .drop _ => .isTrue trivial
  | .rewrite _ _, .create _ => .isTrue trivial
  | .rewrite _ _, .replace _ _ _ => .isTrue trivial
  | .rewrite _ _, .rewrite _ _ => .isTrue trivial
  | .rewrite _ _, .drop _ => .isTrue trivial
  | .drop _, .create _ => .isTrue trivial
  | .drop _, .replace _ _ _ => .isTrue trivial
  | .drop _, .rewrite _ _ => .isTrue trivial
  | .drop _, .drop _ => .isTrue trivial

theorem tableNameKey_eq_iff {left right : TableRow} :
    tableNameKey left = tableNameKey right ↔
      left.schemaId = right.schemaId ∧ left.name.toLower = right.name.toLower := by
  unfold tableNameKey currentTableNameKey
  rw [toLex_inj, Prod.mk.injEq]

/-! ## Listings of a sound catalog -/

/-- A catalog whose tables, names and versions belong together. -/
structure FdbStore.TablesReady (store : FdbStore) : Prop where
  sound : store.tableView.Sound store.lastOrder
  latest : ∀ snapshot, latestSnapshot store.kv = some snapshot → store.tableView.Sound snapshot.order
  unused : latestSnapshot store.kv = none → ∀ tableId, store.kv.currentTableRow.get? tableId = none

theorem visibleTables_eq_nil {rows : List TableRow} {snapshotOrder : CatalogOrderId}
    (hidden : ∀ row ∈ rows, row.validity.isVisibleAt snapshotOrder = false) : visibleTables rows snapshotOrder = [] := by
  have none : (rows.filter fun row => row.validity.isVisibleAt snapshotOrder) = [] := by
    rw [List.filter_eq_nil_iff]
    intro row member
    rw [hidden row member]
    exact Bool.false_ne_true
  unfold visibleTables
  rw [none]
  rfl

variable {rows : OrderedMap TableId TableRow} {tableId : TableId} {items : List α} {item : α} {table : TableRow}
  {now : Int} {commitRawSnapshot : Option RawSnapshotSequence} {commit : TableCommit}
variable {row next : TableRow} {before after : List α} {recoveryId : Option CommitAttemptId}

/-- Without current tables every version has ended by the latest snapshot. -/
theorem hidden_of_versionsSound {through : CatalogOrderId}
    {versions : TableId → CatalogOrderId → Option TableRow} (sound : VersionsSound through rows versions)
    (unused : ∀ tableId, rows.get? tableId = none) {beginOrder : CatalogOrderId}
    (found : versions tableId beginOrder = some row) :
    (row.withBeginOrder beginOrder).validity.isVisibleAt through = false := by
  rw [Bool.eq_false_iff]
  intro visible
  rw [ValidityWindow.isVisibleAt_iff] at visible
  rcases sound tableId beginOrder row found with ⟨endOrder, ended, bound⟩ | ⟨_, current, isCurrent, _⟩
  · exact absurd (visible.2 endOrder ended) (not_lt_of_ge bound)
  · rw [unused] at isCurrent
    cases isCurrent

namespace FdbStore.TablesReady

variable {store : FdbStore}

theorem listed_iff (ready : store.TablesReady) {latest : SnapshotRow} (isLatest : latestSnapshot store.kv = some latest)
    : row ∈ listTablesAt store.kv latest.order ↔
      store.kv.currentTableRow.get? row.tableId = some row := by
  have sound := ready.latest latest isLatest
  have current : row ∈ listCurrentTableRows store.kv ↔ store.kv.currentTableRow.get? row.tableId = some row := by
    unfold listCurrentTableRows
    rw [List.mem_insertionSort, List.mem_map]
    constructor
    · rintro ⟨⟨tableId, stored⟩, entry, rfl⟩
      have found := (OrderedMap.get?_eq_some_iff _).mpr entry
      have named : stored.tableId = tableId := sound.keyed found
      exact named ▸ found
    · intro found
      exact ⟨(row.tableId, row), (OrderedMap.get?_eq_some_iff _).mp found, rfl⟩
  unfold listTablesAt
  by_cases none : listCurrentTableRows store.kv = []
  · have unused : ∀ tableId, store.tableView.rows.get? tableId = .none := by
      intro tableId
      cases found : store.tableView.rows.get? tableId with
      | none => rfl
      | some stored =>
        have listed : stored ∈ listCurrentTableRows store.kv := by
          unfold listCurrentTableRows
          rw [List.mem_insertionSort, List.mem_map]
          exact ⟨(tableId, stored), (OrderedMap.get?_eq_some_iff _).mp found, rfl⟩
        rw [none] at listed
        exact absurd listed List.not_mem_nil
    have noVisible : listTablesAtFromVisibilityIndex store.kv latest.order = [] := by
      refine visibleTables_eq_nil ?_
      intro listed member
      obtain ⟨⟨key, stored⟩, scanned, rfl⟩ := List.mem_map.mp member
      exact hidden_of_versionsSound sound.visibility unused (OrderedMap.mem_scan.mp scanned).1
    have noHistory : listTablesAtFromHistory store.kv latest.order = [] := by
      refine visibleTables_eq_nil ?_
      intro listed member
      obtain ⟨⟨key, stored⟩, entry, rfl⟩ := List.mem_map.mp member
      exact hidden_of_versionsSound sound.objects unused ((OrderedMap.get?_eq_some_iff _).mpr entry)
    have notFound : store.kv.currentTableRow.get? row.tableId = .none := unused row.tableId
    simp [none, noVisible, noHistory, notFound]
  · simp only [isLatest, Option.any_some, decide_true, ne_eq, none, not_false_eq_true, and_self, if_true]
    exact current

end FdbStore.TablesReady

/-! ## What prepared writes expect -/

/-- Every write of the list expects the rows as they are. -/
def ExpectedInOrder (rows : OrderedMap TableId TableRow) (writes : List TableWrite) : Prop :=
  ∀ before write after, writes = before ++ write :: after → write.Expected rows before

theorem pairwise_split {R : α → α → Prop} (pairwise : items.Pairwise R) (split : items = before ++ item :: after) :
    (∀ earlier ∈ before, R earlier item) ∧ ∀ later ∈ after, R item later := by
  rw [split, List.pairwise_append] at pairwise
  refine ⟨fun earlier member => pairwise.2.2 earlier member item List.mem_cons_self, ?_⟩
  exact (List.pairwise_cons.mp pairwise.2.1).1

theorem map_split {f : α → β} {before after : List β} {item : β} (split : items.map f = before ++ item :: after) :
    ∃ first source last, items = first ++ source :: last ∧ first.map f = before ∧ f source = item ∧
      last.map f = after := by
  obtain ⟨first, rest, rfl, same, tail⟩ := List.map_eq_append_iff.mp split
  obtain ⟨source, last, rfl, here, same'⟩ := List.map_eq_cons_iff.mp tail
  exact ⟨first, source, last, rfl, same, here, same'⟩

theorem TableWrite.oneTable_create (table : TableRow) : (TableWrite.create table).OneTable where
  previous _ ends := by cases ends
  named _ _ _ impossible := by cases impossible
  rewrites _ _ impossible := by cases impossible

theorem TableWrite.oneTable_drop (table : TableRow) : (TableWrite.drop table).OneTable where
  previous _ ends := congrArg TableRow.tableId (Option.some.inj ends).symm
  named _ _ _ impossible := by cases impossible
  rewrites _ _ impossible := by cases impossible

theorem oneTable_replacementWrite {replacement : TableVersionReplacement}
    (previous : replacement.previous.tableId = replacement.tableId)
    (next : replacement.next.tableId = replacement.tableId) : (replacementWrite replacement).OneTable where
  previous _ ends := by
    obtain rfl := Option.some.inj ends
    exact previous.trans next.symm
  named _ _ _ same := by
    cases same
    exact next.symm
  rewrites _ _ impossible := by cases impossible

section Creating

variable {seen : FdbStore} {tables : List TableRow}

theorem expected_create {before : List TableWrite}
    (fresh : rows.get? table.tableId = none ∨ table.tableId ∈ before.map TableWrite.tableId)
    (free : ∀ other row, rows.get? other = some row → tableNameKey row = tableNameKey table →
      other ∈ before.map TableWrite.tableId) (precede : ∀ earlier ∈ before, (∃ dropped, earlier = .drop dropped) ∨
      ∃ created, earlier = .create created ∧ earlier.Precedes (.create table)) :
    (TableWrite.create table).Expected rows before where
  oneTable := TableWrite.oneTable_create table
  previous _ ends := by cases ends
  fresh created same := by
    cases same
    exact fresh
  free name takes other row found named := by
    obtain rfl := Option.some.inj takes
    exact Or.inr (free other row found named)
  apart name takes earlier member written leaves named := by
    obtain rfl := Option.some.inj takes
    rcases precede earlier member with ⟨dropped, rfl⟩ | ⟨created, rfl, precedes⟩
    · cases leaves
    · obtain rfl := Option.some.inj leaves
      exact absurd named precedes.2
  again earlier member here := by
    rcases precede earlier member with ⟨dropped, rfl⟩ | ⟨created, rfl, precedes⟩
    · rfl
    · exact absurd here precedes.1

/-- The check of a request finds its ids and names unused. -/
theorem rejectCurrentTableCreateConflicts_free (ready : seen.TablesReady)
    (passes : rejectCurrentTableCreateConflicts seen tables = .ok ()) (member : table ∈ tables) :
    seen.kv.currentTableRow.get? table.tableId = none ∧
      ∀ other row, seen.kv.currentTableRow.get? other = some row → tableNameKey row ≠ tableNameKey table := by
  unfold rejectCurrentTableCreateConflicts at passes
  split at passes
  · rename_i noSnapshot
    have unused := ready.unused noSnapshot
    refine ⟨unused _, fun other row found => ?_⟩
    rw [unused] at found
    cases found
  · rename_i latest _
    rw [bind_eq_ok] at passes
    obtain ⟨_, folds, _⟩ := passes
    obtain ⟨requested, _, accepts⟩ := foldlM_accepts folds member
    unfold rejectCurrentTableCreateConflict at accepts
    split at accepts
    · cases accepts
    · split at accepts
      · cases accepts
      · rename_i absent
        have fresh : seen.kv.currentTableRow.get? table.tableId = none := by simpa using absent
        split at accepts
        · cases accepts
        · split at accepts
          · cases accepts
          · rename_i notTaken
            refine ⟨fresh, fun other row found named => ?_⟩
            have entry := (ready.sound.coherent (tableNameKey table) other).mpr ⟨row, found, named⟩
            have entry : seen.currentTableName.get? (tableNameKey table) = some other := entry
            rw [entry] at notTaken
            obtain rfl : other = table.tableId := by simpa using notTaken
            rw [fresh] at found
            cases found

theorem createTables_expected (ready : seen.TablesReady)
    (prepares : createTables seen now tables commitRawSnapshot recoveryId = .ok (some commit))
    (precede : commit.writes.Pairwise TableWrite.Precedes) :
    ExpectedInOrder seen.kv.currentTableRow commit.writes := by
  unfold createTables createTablesVersionstamped at prepares
  rw [bind_eq_ok] at prepares
  obtain ⟨_, checks, prepares⟩ := prepares
  split at prepares
  · cases prepares
  · rw [bind_eq_ok] at prepares
    obtain ⟨recovered, recovers, prepares⟩ := prepares
    have notRecovered : recoveryId.bind seen.commitAttempt.get? = none := by
      unfold recoverCommittedTables at recovers
      split at recovers
      · assumption
      · rw [map_eq_ok] at recovers
        obtain ⟨rows, _, rfl⟩ := recovers
        simp [pure, Except.pure] at prepares
    obtain rfl : recovered = none := by
      unfold recoverCommittedTables at recovers
      rw [notRecovered] at recovers
      exact (Except.ok.inj recovers).symm
    obtain rfl : TableCommit.created now _ recoveryId tables = commit := by
      simpa [pure, Except.pure] using prepares
    have passes : rejectCurrentTableCreateConflicts seen tables = .ok () := by
      simpa [checkCreateTables, notRecovered] using checks
    intro before write after split
    obtain ⟨earlier, table, later, tablesSplit, rfl, rfl, rfl⟩ := map_split split
    have member : table ∈ tables := tablesSplit ▸ List.mem_append_right _ List.mem_cons_self
    obtain ⟨fresh, free⟩ := rejectCurrentTableCreateConflicts_free ready passes member
    refine expected_create (Or.inl fresh) (fun other row found named => absurd named (free other row found)) ?_
    intro previous listed
    obtain ⟨created, _, rfl⟩ := List.mem_map.mp listed
    exact Or.inr ⟨created, rfl, (pairwise_split precede split).1 _ listed⟩

end Creating

section Editing

variable {seen : FdbStore} {replacements : List TableVersionReplacement}

/-- Replacements of rows that were current when they were prepared. -/
def ReplacesRead (rows : OrderedMap TableId TableRow) (replacements : List TableVersionReplacement) : Prop :=
  ∀ replacement ∈ replacements, rows.get? replacement.tableId = some replacement.previous ∧
    replacement.previous.tableId = replacement.tableId ∧ replacement.next.tableId = replacement.tableId

variable {first last : List α} {renames : List TableRename}

theorem mem_of_split (split : items = first ++ item :: last) : item ∈ items :=
  split ▸ List.mem_append_right _ List.mem_cons_self

theorem mem_of_mem_first {earlier : α} (split : items = first ++ item :: last)
    (member : earlier ∈ first) : earlier ∈ items := split ▸ List.mem_append_left _ member

/-- Edits that keep every name, possibly several of one table. -/
theorem expected_of_kept_names (ready : seen.TablesReady) (replaces : ReplacesRead seen.kv.currentTableRow replacements)
    (keeps : ∀ replacement ∈ replacements, tableNameKey replacement.next = tableNameKey replacement.previous) :
    ExpectedInOrder seen.kv.currentTableRow (replacements.map replacementWrite) := by
  have sound := ready.sound
  intro before write after split
  obtain ⟨first, replacement, last, listSplit, rfl, rfl, rfl⟩ := map_split split
  obtain ⟨isCurrent, previousNamed, nextNamed⟩ := replaces replacement (mem_of_split listSplit)
  have kept := keeps replacement (mem_of_split listSplit)
  refine ⟨oneTable_replacementWrite previousNamed nextNamed, ?_, ?_, ?_, ?_, ?_⟩
  · intro previous ends
    obtain rfl := Option.some.inj ends
    exact (congrArg seen.kv.currentTableRow.get? nextNamed).trans isCurrent
  · intro table impossible
    cases impossible
  · intro name takes other row found named
    obtain rfl := Option.some.inj takes
    refine Or.inl ((sound.coherent.unique found isCurrent ?_).trans nextNamed.symm)
    exact named.trans kept
  · intro name takes earlier member table leaves named
    obtain rfl := Option.some.inj takes
    obtain ⟨sooner, listed, rfl⟩ := List.mem_map.mp member
    obtain ⟨soonerCurrent, _, soonerNamed⟩ := replaces sooner (mem_of_mem_first listSplit listed)
    obtain rfl := Option.some.inj leaves
    have same := (keeps sooner (mem_of_mem_first listSplit listed)).symm.trans (named.trans kept)
    exact soonerNamed.trans ((sound.coherent.unique soonerCurrent isCurrent same).trans nextNamed.symm)
  · intro earlier member here
    obtain ⟨sooner, listed, rfl⟩ := List.mem_map.mp member
    obtain ⟨soonerCurrent, _, soonerNamed⟩ := replaces sooner (mem_of_mem_first listSplit listed)
    have sameTable : sooner.tableId = replacement.tableId := soonerNamed.symm.trans (here.trans nextNamed)
    have samePrevious : sooner.previous = replacement.previous := by
      rw [sameTable, isCurrent] at soonerCurrent
      exact (Option.some.inj soonerCurrent).symm
    refine ⟨sooner.next, rfl, ?_⟩
    rw [keeps sooner (mem_of_mem_first listSplit listed), samePrevious]

/-- Renames of different tables, each to a name that no table outside the batch has. -/
theorem expected_of_renames (replaces : ReplacesRead seen.kv.currentTableRow replacements)
    (distinct : (replacements.map TableVersionReplacement.tableId).Nodup)
    (outside : ∀ replacement ∈ replacements, ∀ other row, seen.kv.currentTableRow.get? other = some row →
      tableNameKey row = tableNameKey replacement.next → other ∈ replacements.map TableVersionReplacement.tableId)
    (inside : replacements.Pairwise fun earlier later => tableNameKey earlier.next ≠ tableNameKey later.next)
    (precede : (replacements.map replacementWrite).Pairwise TableWrite.Precedes) :
    ExpectedInOrder seen.kv.currentTableRow (replacements.map replacementWrite) := by
  intro before write after split
  have ordered := pairwise_split precede split
  obtain ⟨first, replacement, last, listSplit, rfl, rfl, rfl⟩ := map_split split
  obtain ⟨isCurrent, previousNamed, nextNamed⟩ := replaces replacement (mem_of_split listSplit)
  have apart := pairwise_split inside listSplit
  rw [listSplit, List.map_append, List.map_cons] at distinct
  have otherIds := pairwise_split (List.nodup_iff_pairwise_ne.mp distinct) rfl
  have writtenIds : (first.map replacementWrite).map TableWrite.tableId =
      first.map TableVersionReplacement.tableId := by
    rw [List.map_map, List.map_inj_left]
    intro sooner listed
    exact (replaces sooner (mem_of_mem_first listSplit listed)).2.2
  refine ⟨oneTable_replacementWrite previousNamed nextNamed, ?_, ?_, ?_, ?_, ?_⟩
  · intro previous ends
    obtain rfl := Option.some.inj ends
    exact (congrArg seen.kv.currentTableRow.get? nextNamed).trans isCurrent
  · intro table impossible
    cases impossible
  · intro name takes other row found named
    obtain rfl := Option.some.inj takes
    have listed := outside replacement (mem_of_split listSplit) other row found named
    rw [listSplit, List.map_append, List.map_cons, List.mem_append, List.mem_cons] at listed
    rw [writtenIds]
    rcases listed with earlier | isThis | later
    · exact Or.inr earlier
    · exact Or.inl (isThis.trans nextNamed.symm)
    · obtain ⟨following, member, rfl⟩ := List.mem_map.mp later
      have inList : following ∈ replacements := by
        rw [listSplit]
        exact List.mem_append_right _ (List.mem_cons_of_mem _ member)
      obtain ⟨followingCurrent, followingNamed, _⟩ := replaces following inList
      rw [followingCurrent] at found
      obtain rfl := Option.some.inj found
      have precedes := ordered.2 _ (List.mem_map_of_mem member)
      refine absurd named.symm (precedes ?_)
      intro same
      exact otherIds.2 following.tableId (List.mem_map_of_mem member)
        (nextNamed.symm.trans (same.trans followingNamed))
  · intro name takes earlier member table leaves named
    obtain rfl := Option.some.inj takes
    obtain ⟨sooner, listed, rfl⟩ := List.mem_map.mp member
    obtain rfl := Option.some.inj leaves
    exact absurd named (apart.1 sooner listed)
  · intro earlier member here
    obtain ⟨sooner, listed, rfl⟩ := List.mem_map.mp member
    have soonerNamed := (replaces sooner (mem_of_mem_first listSplit listed)).2.2
    exact absurd (soonerNamed.symm.trans (here.trans nextNamed))
      (otherIds.1 sooner.tableId (List.mem_map_of_mem listed))

/-- A batch of renames passes the check of its names one after the other. -/
theorem foldlM_renameTable_names {currentTables : List TableRow} {all : List TableRename}
    {start finish : List RenamedTable} (success : renames.foldlM (renameTable currentTables all) start = .ok finish)
    (apart : start.Pairwise fun earlier later => tableNameKey earlier.renamed ≠ tableNameKey later.renamed)
    (outside : ∀ table ∈ start, ∀ current ∈ currentTables, tableNameKey current = tableNameKey table.renamed →
      current.tableId = table.previous.tableId ∨ current.tableId ∈ all.map TableRename.tableId) :
    (finish.Pairwise fun earlier later => tableNameKey earlier.renamed ≠ tableNameKey later.renamed) ∧
      ∀ table ∈ finish, ∀ current ∈ currentTables, tableNameKey current = tableNameKey table.renamed →
        current.tableId = table.previous.tableId ∨ current.tableId ∈ all.map TableRename.tableId := by
  refine foldlM_invariant (fun renamed : List RenamedTable =>
    (renamed.Pairwise fun earlier later => tableNameKey earlier.renamed ≠ tableNameKey later.renamed) ∧
      ∀ table ∈ renamed, ∀ current ∈ currentTables, tableNameKey current = tableNameKey table.renamed →
        current.tableId = table.previous.tableId ∨ current.tableId ∈ all.map TableRename.tableId)
    success ⟨apart, outside⟩ ?_
  intro renamed rename next _ soFar taken
  unfold renameTable at taken
  split at taken
  · cases taken
  · rename_i previous found
    rw [bind_eq_ok] at taken
    obtain ⟨_, passes, taken⟩ := taken
    obtain rfl : renamed ++ [⟨previous, { previous with name := rename.newName }⟩] = next := by
      simpa [pure, Except.pure] using taken
    unfold rejectTableNameConflict at passes
    dsimp only at passes
    split at passes
    · cases passes
    · rename_i noConflict
      simp only [Bool.or_eq_true, not_or, Bool.not_eq_true, List.any_eq_false, Bool.and_eq_true, decide_eq_true_eq,
        not_and, Bool.not_eq_eq_eq_not, Bool.not_true] at noConflict
      constructor
      · rw [List.pairwise_append]
        refine ⟨soFar.1, List.pairwise_singleton _ _, ?_⟩
        intro earlier member later isNew
        rw [List.mem_singleton] at isNew
        subst isNew
        intro same
        obtain ⟨sameSchema, sameName⟩ := tableNameKey_eq_iff.mp same
        exact noConflict.2 earlier member sameSchema sameName
      · intro table member current listed same
        rcases List.mem_append.mp member with earlier | isNew
        · exact soFar.2 table earlier current listed same
        · rw [List.mem_singleton] at isNew
          subst isNew
          obtain ⟨sameSchema, sameName⟩ := tableNameKey_eq_iff.mp same
          by_cases own : current.tableId = previous.tableId
          · exact Or.inl own
          · right
            by_contra notRenamed
            refine noConflict.1 current listed ⟨⟨sameSchema, own⟩, ?_⟩ sameName
            intro other isOther same
            exact notRenamed (List.mem_map.mpr ⟨other, isOther, same⟩)

/-- An edit of one row that keeps its table and its name. -/
theorem expected_of_edited_row (ready : seen.TablesReady) {previous : TableRow}
    (loads : loadCurrentTableRow seen.kv tableId = .ok previous) (sameTable : next.tableId = previous.tableId)
    (sameName : tableNameKey next = tableNameKey previous) :
    ExpectedInOrder seen.kv.currentTableRow ([⟨tableId, previous, next⟩].map replacementWrite) := by
  have isCurrent := loadCurrentTableRow_ok loads
  have named : previous.tableId = tableId := ready.sound.keyed isCurrent
  refine expected_of_kept_names ready ?_ ?_
  · intro replacement member
    rw [List.mem_singleton.mp member]
    exact ⟨isCurrent, named, sameTable.trans named⟩
  · intro replacement member
    rw [List.mem_singleton.mp member]
    exact sameName

theorem expectedInOrder_nil (rows : OrderedMap TableId TableRow) : ExpectedInOrder rows [] := by
  intro before write after split
  simp at split

variable {sequence : RawSnapshotSequence}

theorem columnVersion_expected {α : Type} (ready : seen.TablesReady) {shape : CatalogResult TableId}
    {change : TableId → List TableColumnRow → CatalogResult (List TableColumnRow × α)}
    (prepares : (prepareColumnVersion seen.kv shape change).map PreparedReplacements.changes =
      .ok (sequence, replacements)) :
    ExpectedInOrder seen.kv.currentTableRow (replacements.map replacementWrite) := by
  obtain ⟨prepared, prepares, same⟩ := map_eq_ok.mp prepares
  unfold prepareColumnVersion at prepares
  simp only [bind_eq_ok, pure_eq_ok] at prepares
  obtain ⟨tableId, _, latest, _, previous, loads, ⟨columns, result⟩, _, rfl⟩ := prepares
  obtain rfl : [⟨tableId, previous, { previous with columns }⟩] = replacements := congrArg Prod.snd same
  exact expected_of_edited_row ready loads rfl rfl

theorem appendColumns_expected (ready : seen.TablesReady) {columns : List TableColumnRow}
    (prepares : (prepareAppendTableColumns seen.kv tableId columns).map PreparedReplacements.changes =
      .ok (sequence, replacements)) :
    ExpectedInOrder seen.kv.currentTableRow (replacements.map replacementWrite) := by
  obtain ⟨prepared, prepares, same⟩ := map_eq_ok.mp prepares
  unfold prepareAppendTableColumns at prepares
  simp only [bind_eq_ok, pure_eq_ok] at prepares
  obtain ⟨latest, _, previous, loads, _, _, rfl⟩ := prepares
  obtain rfl : [⟨tableId, previous, { previous with columns := previous.columns ++ columns }⟩] = replacements :=
    congrArg Prod.snd same
  exact expected_of_edited_row ready loads rfl rfl

theorem renameTables_expected (ready : seen.TablesReady)
    (prepares : (prepareRenameTables seen.kv renames).map PreparedReplacements.changes = .ok (sequence, replacements))
    (precede : (replacements.map replacementWrite).Pairwise TableWrite.Precedes) :
    ExpectedInOrder seen.kv.currentTableRow (replacements.map replacementWrite) := by
  obtain ⟨prepared, prepares, same⟩ := map_eq_ok.mp prepares
  unfold prepareRenameTables at prepares
  simp only [bind_eq_ok, pure_eq_ok] at prepares
  obtain ⟨_, distinct, latest, loads, renamed, folds, rfl⟩ := prepares
  obtain rfl : renamed.map (fun table =>
      (⟨table.previous.tableId, table.previous, table.renamed⟩ : TableVersionReplacement)) = replacements :=
    congrArg Prod.snd same
  have isLatest : latestSnapshot seen.kv = some latest := by
    unfold loadLatestSnapshot at loads
    cases found : latestSnapshot seen.kv with
    | none => simp [found] at loads
    | some snapshot => simpa [found] using loads
  obtain ⟨ids, sources⟩ := foldlM_renameTable folds
  obtain ⟨apart, outside⟩ := foldlM_renameTable_names folds List.Pairwise.nil
    (fun table member => absurd member List.not_mem_nil)
  have sameIds : (renamed.map fun table => (⟨table.previous.tableId, table.previous, table.renamed⟩ :
      TableVersionReplacement)).map TableVersionReplacement.tableId = renames.map TableRename.tableId := by
    rw [List.map_map]
    have plain : renamed.map (fun table => table.previous.tableId) = renames.map TableRename.tableId := by
      simpa using ids
    exact plain
  refine expected_of_renames ?_ ?_ ?_ ?_ precede
  · intro replacement member
    obtain ⟨table, listed, rfl⟩ := List.mem_map.mp member
    obtain ⟨source, named⟩ := sources table listed (by simp)
    exact ⟨(ready.listed_iff isLatest).mp source, rfl, named⟩
  · rw [sameIds]
    exact rejectRepeatedIds_nodup distinct
  · intro replacement member other row found named
    obtain ⟨table, listed, rfl⟩ := List.mem_map.mp member
    have rowNamed : row.tableId = other := ready.sound.keyed found
    have isListed := (ready.listed_iff isLatest).mpr (rowNamed.symm ▸ found)
    rw [sameIds, ← rowNamed]
    rcases outside table listed row isListed named with own | renamedToo
    · have inBatch : table.previous.tableId ∈ renames.map TableRename.tableId := by
        rw [← sameIds, List.map_map]
        exact List.mem_map_of_mem (f := fun table : RenamedTable => table.previous.tableId) listed
      exact own.symm ▸ inBatch
    · exact renamedToo
  · exact List.pairwise_map.mpr apart

theorem registerInlineTables_expected (ready : seen.TablesReady) {files : List InlineMaterialization}
    {commitSnapshot : Option RawSnapshotSequence}
    (prepares : prepareRegisterInlineTables seen.kv files commitSnapshot = .ok (sequence, replacements)) :
    ExpectedInOrder seen.kv.currentTableRow (replacements.map replacementWrite) := by
  unfold prepareRegisterInlineTables at prepares
  simp only [bind_eq_ok, pure_eq_ok] at prepares
  obtain ⟨latest, _, registrations, registers, same⟩ := prepares
  obtain rfl : registrations.filterMap id = replacements := congrArg Prod.snd same
  have registered : ∀ replacement ∈ registrations.filterMap id,
      seen.kv.currentTableRow.get? replacement.tableId = some replacement.previous ∧
        ∃ entries, replacement.next = { replacement.previous with inlinedDataTables := entries } := by
    intro replacement member
    obtain ⟨found, listed, rfl⟩ := List.mem_filterMap.mp member
    obtain ⟨file, _, registers⟩ := mapM_source registers listed
    unfold inlineRegistration at registers
    split at registers
    · cases registers
    · rename_i previous isCurrent
      split at registers
      · cases registers
      · unfold registerInlinedTable at registers
        split at registers
        · cases registers
        · simp only [Option.map_some, Except.ok.injEq, Option.some.injEq] at registers
          subst registers
          exact ⟨isCurrent, _, rfl⟩
  refine expected_of_kept_names ready ?_ ?_
  · intro replacement member
    obtain ⟨isCurrent, entries, same⟩ := registered replacement member
    have named : replacement.previous.tableId = replacement.tableId := ready.sound.keyed isCurrent
    exact ⟨isCurrent, named, same ▸ named⟩
  · intro replacement member
    obtain ⟨_, entries, same⟩ := registered replacement member
    rw [same]
    rfl

theorem editTables_expected (ready : seen.TablesReady) {edit : TableEdit}
    (prepares : editTables seen now edit = .ok (some commit)) (precede : commit.writes.Pairwise TableWrite.Precedes) :
    ExpectedInOrder seen.kv.currentTableRow commit.writes := by
  unfold editTables at prepares
  simp only [bind_eq_ok, pure_eq_ok, Option.some.injEq] at prepares
  obtain ⟨⟨sequence, replacements⟩, prepares, rfl⟩ := prepares
  simp only [TableCommit.writes, List.map_nil, List.append_nil] at precede ⊢
  have nothing : ∀ sequence replacements, (Except.ok (0, []) :
      CatalogResult (RawSnapshotSequence × List TableVersionReplacement)) = .ok (sequence, replacements) →
      ExpectedInOrder seen.kv.currentTableRow (replacements.map replacementWrite) := by
    intro sequence replacements same
    cases same
    exact expectedInOrder_nil _
  cases edit with
  | renameTables renames =>
    simp only [TableEdit.prepare] at prepares
    split at prepares
    · exact nothing _ _ prepares
    · exact renameTables_expected ready prepares precede
  | appendColumns tableId columns =>
    simp only [TableEdit.prepare] at prepares
    split at prepares
    · exact nothing _ _ prepares
    · exact appendColumns_expected ready prepares
  | renameColumns renames
  | dropColumns drops
  | changeColumnTypes changes =>
    simp only [TableEdit.prepare] at prepares
    split at prepares
    · exact nothing _ _ prepares
    · exact columnVersion_expected ready prepares
  | registerInlineTables files commitSnapshot => exact registerInlineTables_expected ready prepares

end Editing

section Dropping

variable {seen : FdbStore} {tableIds : List TableId} {drops : List PreparedTableDrop}

theorem prepareTableDrops_current (ready : seen.TablesReady)
    (prepares : prepareTableDrops seen.kv tableIds = .ok drops) :
    drops.map (fun drop => drop.table.tableId) = tableIds ∧
      ∀ drop ∈ drops, seen.kv.currentTableRow.get? drop.table.tableId = some drop.table := by
  unfold prepareTableDrops at prepares
  have related := mapM_eq_ok_iff.mp prepares
  clear prepares
  induction related with
  | nil => exact ⟨rfl, fun drop member => absurd member List.not_mem_nil⟩
  | @cons tableId drop tableIds drops taken _ ih =>
    obtain ⟨row, loads, rfl⟩ := map_eq_ok.mp taken
    have isCurrent := loadCurrentTableRow_ok loads
    have named : row.tableId = tableId := ready.sound.keyed isCurrent
    refine ⟨congrArg₂ List.cons named ih.1, ?_⟩
    intro drop member
    rcases List.mem_cons.mp member with rfl | later
    · exact (congrArg seen.kv.currentTableRow.get? named).trans isCurrent
    · exact ih.2 drop later

theorem expected_drop {before : List TableWrite} (isCurrent : rows.get? table.tableId = some table)
    (distinct : ∀ earlier ∈ before, earlier.tableId ≠ table.tableId) :
    (TableWrite.drop table).Expected rows before where
  oneTable := TableWrite.oneTable_drop table
  previous _ ends := by
    obtain rfl := Option.some.inj ends
    exact isCurrent
  fresh _ impossible := by cases impossible
  free _ takes := by cases takes
  apart _ takes := by cases takes
  again earlier member here := absurd here (distinct earlier member)

theorem expectedInOrder_drops (isCurrent : ∀ drop ∈ drops, seen.kv.currentTableRow.get? drop.table.tableId = some drop.table)
    (distinct : (drops.map fun drop => drop.table.tableId).Nodup) :
    ExpectedInOrder seen.kv.currentTableRow (drops.map dropWrite) := by
  intro before write after split
  obtain ⟨first, drop, last, listSplit, rfl, rfl, rfl⟩ := map_split split
  refine expected_drop (isCurrent drop (mem_of_split listSplit)) ?_
  intro earlier member
  obtain ⟨sooner, listed, rfl⟩ := List.mem_map.mp member
  rw [listSplit, List.map_append, List.map_cons] at distinct
  exact (pairwise_split (List.nodup_iff_pairwise_ne.mp distinct) rfl).1 _
    (List.mem_map_of_mem (f := fun drop : PreparedTableDrop => drop.table.tableId) listed)

theorem dropTables_expected (ready : seen.TablesReady)
    (prepares : dropTables seen now tableIds commitRawSnapshot = .ok (some commit)) :
    ExpectedInOrder seen.kv.currentTableRow commit.writes := by
  unfold dropTables at prepares
  split at prepares
  · cases prepares
  · simp only [bind_eq_ok, pure_eq_ok, Option.some.injEq] at prepares
    obtain ⟨_, distinct, latest, _, drops, prepares, rfl⟩ := prepares
    obtain ⟨ids, isCurrent⟩ := prepareTableDrops_current ready prepares
    exact expectedInOrder_drops isCurrent (ids.symm ▸ rejectRepeatedIds_nodup distinct)

/-- The writes before one of the new tables: all drops, and the new tables before it. -/
theorem append_split {left right : List α} (split : left ++ right = before ++ item :: after) :
    (∃ last, left = before ++ item :: last) ∨ ∃ first, before = left ++ first ∧ right = first ++ item :: after := by
  rcases List.append_eq_append_iff.mp split with ⟨rest, rfl, same⟩ | ⟨rest, rfl, same⟩
  · exact Or.inr ⟨rest, rfl, same⟩
  · cases rest with
    | nil =>
      refine Or.inr ⟨[], ?_, ?_⟩
      · rw [List.append_nil, List.append_nil]
      · rw [List.nil_append] at same ⊢
        exact same.symm
    | cons first last =>
      rw [List.cons_append, List.cons.injEq] at same
      obtain ⟨rfl, rfl⟩ := same
      exact Or.inl ⟨last, rfl⟩

theorem replaceTables_expected (ready : seen.TablesReady) {tables : List TableRow}
    (prepares : replaceTables seen now tableIds tables commitRawSnapshot recoveryId = .ok (some commit))
    (precede : commit.writes.Pairwise TableWrite.Precedes) :
    ExpectedInOrder seen.kv.currentTableRow commit.writes := by
  unfold replaceTables at prepares
  split at prepares
  · cases prepares
  · rw [bind_eq_ok] at prepares
    obtain ⟨recovered, _, prepares⟩ := prepares
    split at prepares
    · cases prepares
    · rw [map_eq_ok] at prepares
      obtain ⟨prepared, prepares, same⟩ := prepares
      obtain rfl := Option.some.inj same
      unfold prepareReplacedTables at prepares
      simp only [bind_eq_ok, pure_eq_ok] at prepares
      obtain ⟨_, distinct, latest, loads, drops, prepares, _, passes, rfl⟩ := prepares
      obtain ⟨ids, isCurrent⟩ := prepareTableDrops_current ready prepares
      have isLatest : latestSnapshot seen.kv = some latest := by
        unfold loadLatestSnapshot at loads
        cases found : latestSnapshot seen.kv with
        | none => simp [found] at loads
        | some snapshot => simpa [found] using loads
      have conflicts : ∀ table ∈ tables, ∀ other row, seen.kv.currentTableRow.get? other = some row →
          (other = table.tableId ∨ tableNameKey row = tableNameKey table) →
          other ∈ drops.map fun drop => drop.table.tableId := by
        intro table member other row found clash
        have named : row.tableId = other := ready.sound.keyed found
        have listed := (ready.listed_iff isLatest).mpr (named.symm ▸ found)
        have accepts := forM_eq_ok_iff.mp (forM_eq_ok_iff.mp passes table member) row listed
        split at accepts
        · rename_i dropped
          obtain ⟨drop, isDropped, same⟩ := List.any_eq_true.mp dropped
          have same : drop.table.tableId = row.tableId := by simpa using same
          exact List.mem_map.mpr ⟨drop, isDropped, same.trans named⟩
        · split at accepts
          · cases accepts
          · split at accepts
            · cases accepts
            · rename_i otherId otherName
              rcases clash with sameId | sameName
              · exact absurd (named.trans sameId) otherId
              · exact absurd sameName otherName
      have droppedIds : ∀ first : List TableRow, (drops.map fun drop => drop.table.tableId) ⊆
          (drops.map dropWrite ++ first.map TableWrite.create).map TableWrite.tableId := by
        intro first tableId member
        rw [List.map_append, List.mem_append, List.map_map]
        exact Or.inl member
      intro before write after split
      have earlierPrecede := (pairwise_split precede split).1
      rcases append_split split with ⟨last, dropSplit⟩ | ⟨first, rfl, createSplit⟩
      · exact expectedInOrder_drops isCurrent (ids.symm ▸ rejectRepeatedIds_nodup distinct) before write last dropSplit
      · obtain ⟨sooner, table, later, tablesSplit, rfl, rfl, rfl⟩ := map_split createSplit
        have member := mem_of_split tablesSplit
        refine expected_create ?_ ?_ ?_
        · cases found : seen.kv.currentTableRow.get? table.tableId with
          | none => exact Or.inl rfl
          | some row => exact Or.inr (droppedIds sooner (conflicts table member _ row found (Or.inl rfl)))
        · intro other row found named
          exact droppedIds sooner (conflicts table member other row found (Or.inr named))
        · intro earlier listed
          rcases List.mem_append.mp listed with dropped | created
          · obtain ⟨drop, _, rfl⟩ := List.mem_map.mp dropped
            exact Or.inl ⟨drop.table, rfl⟩
          · obtain ⟨new, _, rfl⟩ := List.mem_map.mp created
            exact Or.inr ⟨new, rfl, earlierPrecede _ listed⟩

end Dropping

section Inserting

variable {read seen : FdbStore}

/-- The rows of an insert are read rows with more inline tables. -/
def RegistersRead (read : FdbStore) (tables : OrderedMap TableId TableRow) : Prop :=
  ∀ tableId row, tables.get? tableId = some row → row.tableId = tableId ∧
    ∃ stored, read.kv.currentTableRow.get? tableId = some stored ∧ tableNameKey row = tableNameKey stored

theorem registerInlinedTable_same {tableName : String} {schemaVersion : Nat}
    (registers : registerInlinedTable table tableName schemaVersion = some next) :
    next.tableId = table.tableId ∧ tableNameKey next = tableNameKey table := by
  unfold registerInlinedTable at registers
  split at registers
  · cases registers
  · obtain rfl := Option.some.inj registers
    exact ⟨rfl, rfl⟩

theorem addInlineRequest_registers {requests next : InlineRequests} {request : RuntimeInlineRows}
    (registers : RegistersRead read requests.tables) (adds : addInlineRequest read requests request = .ok next) :
    RegistersRead read next.tables := by
  unfold addInlineRequest at adds
  rw [bind_eq_ok] at adds
  obtain ⟨_, _, adds⟩ := adds
  split at adds
  · cases adds
  · rename_i table found
    simp only [pure_eq_ok] at adds
    subst adds
    obtain ⟨named, stored, isCurrent, sameName⟩ := registers request.tableId table found
    intro tableId row present
    rw [OrderedMap.get?_insert] at present
    split at present
    · rename_i here
      subst here
      obtain rfl := Option.some.inj present
      cases registered : registerInlinedTable table request.tableName request.schemaVersion with
      | none => exact ⟨named, stored, isCurrent, sameName⟩
      | some edited =>
        obtain ⟨sameTable, keptName⟩ := registerInlinedTable_same registered
        exact ⟨sameTable.trans named, stored, isCurrent, keptName.trans sameName⟩
    · exact registers tableId row present

theorem loadCurrentTableRows_registers {tableIds : List TableId} {rows : List TableRow}
    (loads : loadCurrentTableRows read tableIds = .ok rows) :
    RegistersRead read (rows.foldl (fun tables row => tables.insert row.tableId row) .empty) := by
  have loaded : ∀ row ∈ rows, read.kv.currentTableRow.get? row.tableId = some row := by
    intro row member
    obtain ⟨⟨tableId, stored⟩, listed, taken⟩ := mapM_source loads member
    obtain ⟨key, _, present⟩ := List.mem_filterMap.mp listed
    split at taken
    · cases taken
    · rename_i named
      obtain rfl := Except.ok.inj taken
      cases found : read.kv.currentTableRow.get? key with
      | none => simp [found] at present
      | some value =>
        obtain ⟨rfl, rfl⟩ : key = tableId ∧ value = stored := by simpa [found] using present
        exact (congrArg read.kv.currentTableRow.get? (not_not.mp named)).trans found
  clear loads
  have start : RegistersRead read (.empty : OrderedMap TableId TableRow) := by
    intro tableId row found
    cases found
  generalize (.empty : OrderedMap TableId TableRow) = tables at start ⊢
  induction rows generalizing tables with
  | nil => exact start
  | cons row rest ih =>
    refine ih (fun other member => loaded other (List.mem_cons_of_mem _ member)) _ ?_
    intro tableId stored found
    rw [OrderedMap.get?_insert] at found
    split at found
    · rename_i here
      obtain rfl := Option.some.inj found
      exact ⟨here.symm, row, here ▸ loaded row List.mem_cons_self, rfl⟩
    · exact start tableId stored found

variable {requests : List RuntimeInlineRows} {deletes : List InlineTableDeletePayload}

theorem prepareInlineRequests_registers
    {mutation : FdbInlineMutation} (prepares : prepareInlineRequests read requests deletes = .ok mutation) :
    ∀ table ∈ mutation.tables, ∃ stored, read.kv.currentTableRow.get? table.tableId = some stored ∧
      tableNameKey table = tableNameKey stored := by
  unfold prepareInlineRequests at prepares
  simp only [bind_eq_ok, pure_eq_ok] at prepares
  obtain ⟨rows, loads, finished, folds, rfl⟩ := prepares
  have registers := foldlM_invariant (fun state : InlineRequests => RegistersRead read state.tables) folds
    (loadCurrentTableRows_registers loads) fun state request next _ holds adds => addInlineRequest_registers holds adds
  intro table member
  obtain ⟨⟨tableId, row⟩, listed, rfl⟩ := List.mem_map.mp member
  obtain ⟨named, stored, isCurrent, sameName⟩ := registers tableId row
    ((OrderedMap.get?_eq_some_iff _).mpr (List.mem_filter.mp listed).1)
  exact ⟨stored, (congrArg read.kv.currentTableRow.get? named).trans isCurrent, sameName⟩

theorem insertInlineRows_expected (ready : seen.TablesReady) {context : InlineTableCommitContext}
    (prepares : insertInlineRows read seen now requests deletes context = .ok (some commit))
    (unchanged : ∀ write ∈ commit.writes,
      seen.kv.currentTableRow.get? write.tableId = read.kv.currentTableRow.get? write.tableId) :
    ExpectedInOrder seen.kv.currentTableRow commit.writes := by
  unfold insertInlineRows at prepares
  simp only [bind_eq_ok, pure_eq_ok, Option.some.injEq] at prepares
  obtain ⟨mutation, requested, prepared, prepares, rfl⟩ := prepares
  have registers := prepareInlineRequests_registers requested
  unfold prepareInlineTableMutation at prepares
  simp only [bind_eq_ok, pure_eq_ok] at prepares
  obtain ⟨_, _, _, _, replacements, replaces, payloads, _, _, _, _, _, rfl⟩ := prepares
  simp only [TableCommit.writes] at unchanged ⊢
  have facts : ∀ replacement ∈ replacements,
      seen.kv.currentTableRow.get? replacement.2.tableId = some replacement.1 ∧
        replacement.1.tableId = replacement.2.tableId ∧ replacement.2.validity.endOrder = none ∧
        tableNameKey replacement.1 = tableNameKey replacement.2 := by
    intro replacement member
    obtain ⟨table, listed, taken⟩ := mapM_source replaces member
    unfold prepareTableReplacement at taken
    split at taken
    · cases taken
    · split at taken
      · cases taken
      · rename_i previous isCurrent
        obtain rfl := Except.ok.inj taken
        obtain ⟨stored, wasCurrent, sameName⟩ := registers table listed
        have same := unchanged _ (List.mem_map_of_mem (f := inlineWrite) member)
        have same : seen.kv.currentTableRow.get? table.tableId = read.kv.currentTableRow.get? table.tableId := same
        obtain rfl : previous = stored := by
          rw [isCurrent, wasCurrent] at same
          exact Option.some.inj same
        exact ⟨isCurrent, ready.sound.keyed isCurrent, rfl, sameName.symm⟩
  intro before write after split
  obtain ⟨first, replacement, last, listSplit, rfl, rfl, rfl⟩ := map_split split
  obtain ⟨isCurrent, sameTable, isOpen, sameName⟩ := facts replacement (mem_of_split listSplit)
  refine ⟨⟨?_, ?_, ?_⟩, ?_, ?_, ?_, ?_, ?_⟩
  · intro previous ends
    obtain rfl := Option.some.inj ends
    exact sameTable
  · intro tableId previous next impossible
    cases impossible
  · intro previous next same
    cases same
    exact ⟨isOpen, sameName⟩
  · intro previous ends
    obtain rfl := Option.some.inj ends
    exact isCurrent
  · intro table impossible
    cases impossible
  · intro name takes
    cases takes
  · intro name takes
    cases takes
  · intro earlier member here
    obtain ⟨sooner, listed, rfl⟩ := List.mem_map.mp member
    obtain ⟨soonerCurrent, _, _, soonerName⟩ := facts sooner (mem_of_mem_first listSplit listed)
    have here : sooner.2.tableId = replacement.2.tableId := here
    rw [here, isCurrent] at soonerCurrent
    exact ⟨sooner.2, rfl, soonerName.symm.trans (congrArg tableNameKey (Option.some.inj soonerCurrent).symm)⟩

end Inserting

end DucklakeCatalog.Fdb
