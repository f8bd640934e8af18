import DucklakeCatalog.Fdb.TableWrites

/-! When the writes of a commit fit the tables they meet: then the current rows,
the name index and the stored versions still belong together afterwards. -/
namespace DucklakeCatalog.Fdb

open KeyedStore

/-! ## Stored versions -/

/-- Every stored version has ended or is the current one. -/
def VersionsSound (through : CatalogOrderId) (rows : OrderedMap TableId TableRow)
    (versions : TableId → CatalogOrderId → Option TableRow) : Prop :=
  ∀ tableId beginOrder row, versions tableId beginOrder = some row →
    (∃ endOrder, row.validity.endOrder = some endOrder ∧ endOrder ≤ through) ∨
      (row.validity.endOrder = none ∧
        ∃ current, rows.get? tableId = some current ∧ current.validity.beginOrder = beginOrder)

def withVersion (versions : TableId → CatalogOrderId → Option TableRow) (tableId : TableId)
    (beginOrder : CatalogOrderId) (row : TableRow) : TableId → CatalogOrderId → Option TableRow :=
  fun query order => if query = tableId ∧ order = beginOrder then some row else versions query order

variable {row table previous : TableRow}

namespace VersionsSound

variable {through order : CatalogOrderId} {rows : OrderedMap TableId TableRow}
  {versions : TableId → CatalogOrderId → Option TableRow} {tableId : TableId}

theorem close (sound : VersionsSound through rows versions) (later : through ≤ order) (beginOrder : CatalogOrderId)
    (ended : row.validity.endOrder = some order) :
    VersionsSound order rows (withVersion versions tableId beginOrder row) := by
  intro query begun stored found
  unfold withVersion at found
  split at found
  · obtain rfl := Option.some.inj found
    exact Or.inl ⟨order, ended, le_rfl⟩
  · rcases sound query begun stored found with ⟨endOrder, past, bound⟩ | current
    · exact Or.inl ⟨endOrder, past, bound.trans later⟩
    · exact Or.inr current

theorem opened (sound : VersionsSound order rows versions)
    (noOther : ∀ beginOrder row, versions tableId beginOrder = some row → row.validity.endOrder = none →
      beginOrder = order)
    {current : TableRow} (isOpen : row.validity.endOrder = none) (begun : current.validity.beginOrder = order) :
    VersionsSound order (rows.insert tableId current) (withVersion versions tableId order row) := by
  intro query beginOrder stored found
  unfold withVersion at found
  split at found
  · rename_i here
    obtain rfl := Option.some.inj found
    exact Or.inr ⟨isOpen, current, by rw [here.1, OrderedMap.get?_insert_self], begun.trans here.2.symm⟩
  · rename_i elsewhere
    rcases sound query beginOrder stored found with past | ⟨still, known, isCurrent, named⟩
    · exact Or.inl past
    · by_cases same : query = tableId
      · subst same
        exact absurd ⟨rfl, noOther beginOrder stored found still⟩ elsewhere
      · exact Or.inr ⟨still, known, by rwa [OrderedMap.get?_insert, if_neg same], named⟩

theorem dropped (sound : VersionsSound order rows versions)
    (allEnded : ∀ beginOrder row, versions tableId beginOrder = some row → row.validity.endOrder ≠ none) :
    VersionsSound order (rows.erase tableId) versions := by
  intro query beginOrder stored found
  rcases sound query beginOrder stored found with past | ⟨still, current, isCurrent, named⟩
  · exact Or.inl past
  · by_cases same : query = tableId
    · subst same
      exact absurd still (allEnded beginOrder stored found)
    · exact Or.inr ⟨still, current, by rwa [OrderedMap.get?_erase, if_neg same], named⟩

/-- Once the current version is closed, an open one can only have begun with this commit. -/
theorem begun_of_closed (sound : VersionsSound through rows versions) {closedAt : CatalogOrderId}
    (begins : ∀ current, rows.get? tableId = some current →
      current.validity.beginOrder = closedAt ∨ current.validity.beginOrder = order)
    {closed : TableRow} (ended : closed.validity.endOrder = some order) :
    ∀ beginOrder row, withVersion versions tableId closedAt closed tableId beginOrder = some row →
      row.validity.endOrder = none → beginOrder = order := by
  intro beginOrder row found isOpen
  unfold withVersion at found
  split at found
  · obtain rfl := Option.some.inj found
    rw [ended] at isOpen
    cases isOpen
  · rename_i elsewhere
    rcases sound tableId beginOrder row found with ⟨endOrder, past, _⟩ | ⟨_, current, isCurrent, named⟩
    · rw [past] at isOpen
      cases isOpen
    · rcases begins current isCurrent with atClosed | atOrder
      · exact absurd ⟨rfl, named.symm.trans atClosed⟩ elsewhere
      · exact named.symm.trans atOrder

end VersionsSound

def objectVersions (objects : OrderedMap TableObjectKey TableRow) (tableId : TableId) (order : CatalogOrderId) :
    Option TableRow := objects.get? ⟨tableId, order⟩

def visibilityVersions (visibility : OrderedMap TableVisibilityKey TableRow) (tableId : TableId)
    (order : CatalogOrderId) : Option TableRow := visibility.get? ⟨order, tableId⟩

theorem objectVersions_insert (objects : OrderedMap TableObjectKey TableRow) (tableId : TableId)
    (order : CatalogOrderId) (row : TableRow) :
    objectVersions (objects.insert ⟨tableId, order⟩ row) = withVersion (objectVersions objects) tableId order row := by
  funext query begun
  simp only [objectVersions, withVersion, OrderedMap.get?_insert, TableObjectKey.mk.injEq]

theorem visibilityVersions_insert (visibility : OrderedMap TableVisibilityKey TableRow) (tableId : TableId)
    (order : CatalogOrderId) (row : TableRow) :
    visibilityVersions (visibility.insert ⟨order, tableId⟩ row) =
      withVersion (visibilityVersions visibility) tableId order row := by
  funext query begun
  simp only [visibilityVersions, withVersion, OrderedMap.get?_insert, TableVisibilityKey.mk.injEq]
  simp only [and_comm]

/-! ## Sound views -/

structure TableView.Sound (through : CatalogOrderId) (view : TableView) : Prop where
  coherent : view.Coherent
  keyed : ∀ {tableId row}, view.rows.get? tableId = some row → row.tableId = tableId
  objects : VersionsSound through view.rows (objectVersions view.objects)
  visibility : VersionsSound through view.rows (visibilityVersions view.visibility)

/-- The row a write ends begins where the current one does, unless this commit has already replaced that one. -/
def EndsCurrent (order : CatalogOrderId) (view : TableView) (previous : TableRow) : Prop :=
  ∀ current, view.rows.get? previous.tableId = some current →
    current.validity.beginOrder = previous.validity.beginOrder ∨ current.validity.beginOrder = order

/-- A write that settles and ends the version it means to end. -/
structure TableWrite.Fits (order : CatalogOrderId) (view : TableView) (write : TableWrite) : Prop where
  settles : write.Settles view
  ends : ∀ previous, write.previous = some previous → previous.tableId = write.tableId ∧ EndsCurrent order view previous
  named : ∀ tableId previous next, write = .replace tableId previous next → tableId = next.tableId
  continues : ∀ previous next, write = .rewrite previous next → next.validity.endOrder = none
  dropsOther : ∀ table, write = .drop table → ∀ current, view.rows.get? table.tableId = some current →
    current.validity.beginOrder = table.validity.beginOrder

namespace TableView.Sound

variable {through order : CatalogOrderId} {view : TableView}

theorem keyed_insert (sound : view.Sound through) (row : TableRow) {tableId : TableId} {stored : TableRow}
    (found : (view.rows.insert row.tableId row).get? tableId = some stored) : stored.tableId = tableId := by
  rw [OrderedMap.get?_insert] at found
  split at found
  · rename_i same
    rw [← Option.some.inj found, same]
  · exact sound.keyed found

theorem keyed_erase (sound : view.Sound through) {erased tableId : TableId} {stored : TableRow}
    (found : (view.rows.erase erased).get? tableId = some stored) : stored.tableId = tableId := by
  rw [OrderedMap.get?_erase] at found
  split at found
  · cases found
  · exact sound.keyed found

theorem create (sound : view.Sound through) (later : through ≤ order)
    (settles : (TableWrite.create table).Settles view) : ((TableWrite.create table).apply order view).Sound order := by
  have fresh := settles.1
  have noOpen : ∀ versions, VersionsSound through view.rows versions → ∀ beginOrder row,
      versions table.tableId beginOrder = some row → row.validity.endOrder = none → beginOrder = order := by
    intro versions known beginOrder row found isOpen
    rcases known table.tableId beginOrder row found with ⟨_, past, _⟩ | ⟨_, _, isCurrent, _⟩
    · rw [past] at isOpen
      cases isOpen
    · rw [fresh] at isCurrent
      cases isCurrent
  have raise : ∀ versions, VersionsSound through view.rows versions → VersionsSound order view.rows versions := by
    intro versions known tableId beginOrder row found
    exact (known tableId beginOrder row found).imp_left fun ⟨endOrder, past, bound⟩ =>
      ⟨endOrder, past, bound.trans later⟩
  refine ⟨sound.coherent.apply settles order, sound.keyed_insert (storedTable order table), ?_, ?_⟩
  · change VersionsSound order _ (objectVersions (view.objects.insert _ _))
    rw [objectVersions_insert]
    exact (raise _ sound.objects).opened (noOpen _ sound.objects) rfl rfl
  · change VersionsSound order _ (visibilityVersions (view.visibility.insert _ _))
    rw [visibilityVersions_insert]
    exact (raise _ sound.visibility).opened (noOpen _ sound.visibility) rfl rfl

/-- Ending the current version and beginning the next one, in either family. -/
theorem succeeds {versions : TableId → CatalogOrderId → Option TableRow} (later : through ≤ order)
    (known : VersionsSound through view.rows versions) {next current : TableRow}
    (ends : EndsCurrent order view previous) (isOpen : next.validity.endOrder = none)
    (begun : current.validity.beginOrder = order) :
    VersionsSound order (view.rows.insert previous.tableId current)
      (withVersion (withVersion versions previous.tableId previous.validity.beginOrder
        (previous.withEndOrder (some order))) previous.tableId order next) :=
  (known.close later previous.validity.beginOrder rfl).opened (known.begun_of_closed ends rfl) isOpen begun

theorem replace (sound : view.Sound through) (later : through ≤ order) {tableId : TableId} {previous next : TableRow}
    (fits : (TableWrite.replace tableId previous next).Fits order view) :
    ((TableWrite.replace tableId previous next).apply order view).Sound order := by
  obtain ⟨sameTable, ends⟩ := fits.ends previous rfl
  obtain rfl : tableId = next.tableId := fits.named tableId previous next rfl
  have sameTable : previous.tableId = next.tableId := sameTable
  refine ⟨sound.coherent.apply fits.settles order, sound.keyed_insert (storedTable order next), ?_, ?_⟩
  · change VersionsSound order (view.rows.insert next.tableId (storedTable order next))
      (objectVersions ((view.objects.insert _ _).insert _ _))
    rw [objectVersions_insert, objectVersions_insert, ← sameTable]
    exact succeeds later sound.objects ends rfl rfl
  · change VersionsSound order (view.rows.insert next.tableId (storedTable order next))
      (visibilityVersions ((view.visibility.insert _ _).insert _ _))
    rw [visibilityVersions_insert, visibilityVersions_insert, ← sameTable]
    exact succeeds later sound.visibility ends rfl rfl

theorem rewrite (sound : view.Sound through) (later : through ≤ order) {next : TableRow}
    (fits : (TableWrite.rewrite previous next).Fits order view) :
    ((TableWrite.rewrite previous next).apply order view).Sound order := by
  obtain ⟨sameTable, ends⟩ := fits.ends previous rfl
  have sameTable : previous.tableId = next.tableId := sameTable
  have isOpen := fits.continues previous next rfl
  refine ⟨sound.coherent.apply fits.settles order, sound.keyed_insert (next.withBeginOrder order), ?_, ?_⟩
  · change VersionsSound order (view.rows.insert next.tableId (next.withBeginOrder order))
      (objectVersions ((view.objects.insert _ _).insert _ _))
    rw [objectVersions_insert, objectVersions_insert, ← sameTable]
    exact succeeds later sound.objects ends isOpen rfl
  · change VersionsSound order (view.rows.insert next.tableId (next.withBeginOrder order))
      (visibilityVersions ((view.visibility.insert _ _).insert _ _))
    rw [visibilityVersions_insert, visibilityVersions_insert, ← sameTable]
    exact succeeds later sound.visibility ends isOpen rfl

theorem drop (sound : view.Sound through) (later : through ≤ order)
    (fits : (TableWrite.drop table).Fits order view) : ((TableWrite.drop table).apply order view).Sound order := by
  have begins := fits.dropsOther table rfl
  have closes : ∀ versions, VersionsSound through view.rows versions →
      VersionsSound order (view.rows.erase table.tableId)
        (withVersion versions table.tableId table.validity.beginOrder (table.withEndOrder (some order))) := by
    intro versions known
    refine (known.close later table.validity.beginOrder rfl).dropped ?_
    intro beginOrder row found
    unfold withVersion at found
    split at found
    · rw [← Option.some.inj found]
      exact Option.some_ne_none order
    · rename_i elsewhere
      rcases known table.tableId beginOrder row found with ⟨_, past, _⟩ | ⟨_, current, isCurrent, named⟩
      · rw [past]
        exact Option.some_ne_none _
      · exact absurd ⟨rfl, named.symm.trans (begins current isCurrent)⟩ elsewhere
  refine ⟨sound.coherent.apply fits.settles order, sound.keyed_erase, ?_, ?_⟩
  · change VersionsSound order _ (objectVersions (view.objects.insert _ _))
    rw [objectVersions_insert]
    exact closes _ sound.objects
  · change VersionsSound order _ (visibilityVersions (view.visibility.insert _ _))
    rw [visibilityVersions_insert]
    exact closes _ sound.visibility

theorem apply (sound : view.Sound through) (later : through ≤ order) {write : TableWrite}
    (fits : write.Fits order view) : (write.apply order view).Sound order := by
  cases write with
  | create table => exact sound.create later fits.settles
  | replace tableId previous next => exact sound.replace later fits
  | rewrite previous next => exact sound.rewrite later fits
  | drop table => exact sound.drop later fits

/-- A commit keeps the view sound if each write fits what the writes before it leave. -/
theorem foldl_apply {writes : List TableWrite} (sound : view.Sound through) (later : through ≤ order)
    (fits : ∀ before write after, writes = before ++ write :: after →
      write.Fits order (before.foldl (TableWrite.apply order) view)) :
    ∃ reached, reached ≤ order ∧ (writes.foldl (TableWrite.apply order) view).Sound reached := by
  induction writes generalizing through view with
  | nil => exact ⟨through, later, sound⟩
  | cons write rest ih =>
    have next := sound.apply later (fits [] write rest rfl)
    refine ih next le_rfl ?_
    intro before following after split
    exact fits (write :: before) following after (by rw [split, List.cons_append])

theorem mono (sound : view.Sound through) (later : through ≤ order) : view.Sound order where
  coherent := sound.coherent
  keyed := sound.keyed
  objects tableId beginOrder row found := (sound.objects tableId beginOrder row found).imp_left
    fun ⟨endOrder, past, bound⟩ => ⟨endOrder, past, bound.trans later⟩
  visibility tableId beginOrder row found := (sound.visibility tableId beginOrder row found).imp_left
    fun ⟨endOrder, past, bound⟩ => ⟨endOrder, past, bound.trans later⟩

end TableView.Sound

/-! ## What a list of writes expects -/

/-- The current row a write leaves. -/
def TableWrite.stored (order : CatalogOrderId) : TableWrite → Option TableRow
  | .create table => some (storedTable order table)
  | .replace _ _ next => some (storedTable order next)
  | .rewrite _ next => some (next.withBeginOrder order)
  | .drop _ => none

/-- The name a write gives its table. -/
def TableWrite.takes : TableWrite → Option (SchemaId ×ₗ String)
  | .create table => some (tableNameKey table)
  | .replace _ _ next => some (tableNameKey next)
  | .rewrite _ _ => none
  | .drop _ => none

theorem TableWrite.apply_rows (order : CatalogOrderId) (view : TableView) (write : TableWrite) (tableId : TableId) :
    (write.apply order view).rows.get? tableId =
      if tableId = write.tableId then write.stored order else view.rows.get? tableId := by
  cases write with
  | create table
  | replace replaced previous next
  | rewrite previous next => exact OrderedMap.get?_insert _ _ _ _
  | drop table => exact OrderedMap.get?_erase _ _ _

theorem TableWrite.stored_of_written {write : TableWrite} (written : write.written = some table)
    (order : CatalogOrderId) : ∃ row, write.stored order = some row ∧ tableNameKey row = tableNameKey table ∧
      row.validity.beginOrder = order := by
  cases write with
  | create created
  | replace tableId previous next
  | rewrite previous next =>
    obtain rfl := Option.some.inj written
    exact ⟨_, rfl, rfl, rfl⟩
  | drop dropped => cases written

theorem TableWrite.written_of_stored {write : TableWrite} {order : CatalogOrderId}
    (stored : write.stored order = some row) :
    ∃ table, write.written = some table ∧ tableNameKey row = tableNameKey table := by
  cases write with
  | create created =>
    obtain rfl := Option.some.inj stored
    exact ⟨created, rfl, rfl⟩
  | replace tableId previous next
  | rewrite previous next =>
    obtain rfl := Option.some.inj stored
    exact ⟨next, rfl, rfl⟩
  | drop dropped => cases stored

/-- A table has its old row, or the one a write of the list leaves it. -/
theorem foldl_apply_rows (order : CatalogOrderId) (writes : List TableWrite) (view : TableView) (tableId : TableId) :
    (tableId ∉ writes.map TableWrite.tableId ∧
        (writes.foldl (TableWrite.apply order) view).rows.get? tableId = view.rows.get? tableId) ∨
      ∃ write ∈ writes, write.tableId = tableId ∧
        (writes.foldl (TableWrite.apply order) view).rows.get? tableId = write.stored order := by
  induction writes generalizing view with
  | nil => exact Or.inl ⟨List.not_mem_nil, rfl⟩
  | cons write rest ih =>
    rw [List.foldl_cons]
    rcases ih (write.apply order view) with ⟨absent, same⟩ | ⟨later, member, named, same⟩
    · rw [write.apply_rows] at same
      by_cases here : tableId = write.tableId
      · rw [if_pos here] at same
        exact Or.inr ⟨write, List.mem_cons_self, here.symm, same⟩
      · rw [if_neg here] at same
        refine Or.inl ⟨?_, same⟩
        rw [List.map_cons, List.mem_cons]
        exact not_or.mpr ⟨here, absent⟩
    · exact Or.inr ⟨later, List.mem_cons_of_mem _ member, named, same⟩

/-- What an earlier write of the same commit has left the table of a write. -/
def TableWrite.Follows (earlier : TableWrite) : TableWrite → Prop
  | .create _ => earlier.written = none
  | .replace _ previous _ => ∃ table, earlier.written = some table ∧ tableNameKey table = tableNameKey previous
  | .rewrite previous _ => ∃ table, earlier.written = some table ∧ tableNameKey table = tableNameKey previous
  | .drop _ => False

/-- A write names one table throughout. -/
structure TableWrite.OneTable (write : TableWrite) : Prop where
  previous : ∀ previous, write.previous = some previous → previous.tableId = write.tableId
  named : ∀ tableId previous next, write = .replace tableId previous next → tableId = next.tableId
  rewrites : ∀ previous next, write = .rewrite previous next →
    next.validity.endOrder = none ∧ tableNameKey previous = tableNameKey next

/-- What a write expects of the current rows when the commit starts. -/
structure TableWrite.Expected (rows : OrderedMap TableId TableRow) (before : List TableWrite) (write : TableWrite) :
    Prop where
  oneTable : write.OneTable
  previous : ∀ previous, write.previous = some previous → rows.get? write.tableId = some previous
  fresh : ∀ table, write = .create table →
    rows.get? table.tableId = none ∨ table.tableId ∈ before.map TableWrite.tableId
  free : ∀ name, write.takes = some name → ∀ other row, rows.get? other = some row → tableNameKey row = name →
    other = write.tableId ∨ other ∈ before.map TableWrite.tableId
  apart : ∀ name, write.takes = some name → ∀ earlier ∈ before, ∀ table, earlier.written = some table →
    tableNameKey table = name → earlier.tableId = write.tableId
  again : ∀ earlier ∈ before, earlier.tableId = write.tableId → earlier.Follows write

namespace TableWrite.Expected

variable {order : CatalogOrderId} {view : TableView} {before : List TableWrite} {write : TableWrite}

section

variable (expected : write.Expected view.rows before)

include expected

/-- The name a write takes is free by its turn. -/
theorem free_by_turn {name : SchemaId ×ₗ String}
    (takes : write.takes = some name) :
    FreeFor tableNameKey (before.foldl (TableWrite.apply order) view).rows write.tableId name := by
  intro other row found named
  rcases foldl_apply_rows order before view other with ⟨absent, same⟩ | ⟨earlier, member, here, same⟩
  · rw [same] at found
    rcases expected.free name takes other row found named with isWritten | touched
    · exact isWritten
    · exact absurd touched absent
  · rw [same] at found
    obtain ⟨table, written, sameName⟩ := written_of_stored found
    exact here.symm.trans (expected.apart name takes earlier member table written (sameName.symm.trans named))

/-- By the turn of a write its table has the row that was read, or one this commit left under the same name. -/
theorem ended_by_turn (order : CatalogOrderId)
    (ends : write.previous = some previous) (follows : ∀ earlier : TableWrite, earlier.Follows write →
      ∃ table, earlier.written = some table ∧ tableNameKey table = tableNameKey previous) :
    ∃ row, (before.foldl (TableWrite.apply order) view).rows.get? write.tableId = some row ∧
      tableNameKey row = tableNameKey previous ∧
      (row.validity.beginOrder = previous.validity.beginOrder ∨ row.validity.beginOrder = order) := by
  rcases foldl_apply_rows order before view write.tableId with ⟨_, same⟩ | ⟨earlier, member, here, same⟩
  · exact ⟨previous, same.trans (expected.previous previous ends), rfl, Or.inl rfl⟩
  · obtain ⟨table, written, sameName⟩ := follows earlier (expected.again earlier member here)
    obtain ⟨row, stored, named, begun⟩ := stored_of_written written order
    exact ⟨row, same.trans stored, named.trans sameName, Or.inr begun⟩

theorem endsCurrent (ends : write.previous = some previous)
    (follows : ∀ earlier : TableWrite, earlier.Follows write →
      ∃ table, earlier.written = some table ∧ tableNameKey table = tableNameKey previous) :
    EndsCurrent order (before.foldl (TableWrite.apply order) view) previous := by
  intro current isCurrent
  obtain ⟨row, found, _, begun⟩ := expected.ended_by_turn order ends follows
  rw [expected.oneTable.previous previous ends, found] at isCurrent
  exact Option.some.inj isCurrent ▸ begun

/-- A write whose expectations hold when the commit starts fits when its turn comes. -/
theorem fits :
    write.Fits order (before.foldl (TableWrite.apply order) view) := by
  cases write with
  | create table =>
    refine ⟨⟨?_, expected.free_by_turn rfl⟩, ?_, ?_, ?_, ?_⟩
    · rcases foldl_apply_rows order before view table.tableId with ⟨absent, same⟩ | ⟨earlier, member, here, same⟩
      · rw [same]
        exact (expected.fresh table rfl).resolve_right absent
      · rw [same]
        have gone : earlier.written = none := expected.again earlier member here
        cases stored : earlier.stored order with
        | none => rfl
        | some row =>
          obtain ⟨left, written, _⟩ := written_of_stored stored
          rw [gone] at written
          cases written
    · intro previous ends
      cases ends
    · intro tableId previous next impossible
      cases impossible
    · intro previous next impossible
      cases impossible
    · intro dropped impossible
      cases impossible
  | replace tableId previous next =>
    have follows : ∀ earlier : TableWrite, earlier.Follows (.replace tableId previous next) →
        ∃ table, earlier.written = some table ∧ tableNameKey table = tableNameKey previous := fun _ left => left
    obtain ⟨row, found, named, _⟩ := expected.ended_by_turn order rfl follows
    refine ⟨⟨⟨row, found, named⟩, expected.free_by_turn rfl⟩, ?_, expected.oneTable.named, ?_, ?_⟩
    · intro ended ends
      obtain rfl := Option.some.inj ends
      exact ⟨expected.oneTable.previous previous rfl, expected.endsCurrent rfl follows⟩
    · intro ended next impossible
      cases impossible
    · intro dropped impossible
      cases impossible
  | rewrite previous next =>
    have follows : ∀ earlier : TableWrite, earlier.Follows (.rewrite previous next) →
        ∃ table, earlier.written = some table ∧ tableNameKey table = tableNameKey previous := fun _ left => left
    obtain ⟨row, found, named, _⟩ := expected.ended_by_turn order rfl follows
    have kept := expected.oneTable.rewrites previous next rfl
    refine ⟨⟨row, found, named.trans kept.2⟩, ?_, ?_, ?_, ?_⟩
    · intro ended ends
      obtain rfl := Option.some.inj ends
      exact ⟨expected.oneTable.previous previous rfl, expected.endsCurrent rfl follows⟩
    · intro tableId ended following impossible
      cases impossible
    · intro ended following same
      cases same
      exact kept.1
    · intro dropped impossible
      cases impossible
  | drop table =>
    have untouched : ∀ earlier : TableWrite, earlier.Follows (.drop table) →
        ∃ left, earlier.written = some left ∧ tableNameKey left = tableNameKey table := fun _ impossible => impossible.elim
    obtain ⟨row, found, named, _⟩ := expected.ended_by_turn order rfl untouched
    refine ⟨⟨row, found, named⟩, ?_, ?_, ?_, ?_⟩
    · intro ended ends
      obtain rfl := Option.some.inj ends
      exact ⟨rfl, expected.endsCurrent rfl untouched⟩
    · intro tableId ended following impossible
      cases impossible
    · intro ended following impossible
      cases impossible
    · intro dropped same current isCurrent
      cases same
      rcases foldl_apply_rows order before view table.tableId with ⟨_, same⟩ | ⟨earlier, member, here, _⟩
      · have wasCurrent : view.rows.get? table.tableId = some table := expected.previous table rfl
        rw [same, wasCurrent] at isCurrent
        exact congrArg (fun row : TableRow => row.validity.beginOrder) (Option.some.inj isCurrent).symm
      · exact (expected.again earlier member here).elim

end

end TableWrite.Expected

end DucklakeCatalog.Fdb
