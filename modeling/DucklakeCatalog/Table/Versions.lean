import DucklakeCatalog.Table.Commits

namespace DucklakeCatalog

open KeyedStore

/-- The three families that hold versions of a table. -/
structure TableMaps where
  objects : OrderedMap TableObjectKey TableRow
  visibility : OrderedMap TableVisibilityKey TableRow
  current : OrderedMap TableId TableRow

def CatalogKv.tableMaps (kv : CatalogKv) : TableMaps where
  objects := kv.tableObject
  visibility := kv.tableVisibility
  current := kv.currentTableRow

namespace TableMaps

/-- The versions of one table: one after another, the open one current, and none past the given order. -/
structure SoundFor (maps : TableMaps) (through : CatalogOrderId) (tableId : TableId) : Prop where
  named : ∀ {order row}, maps.objects.get? ⟨tableId, order⟩ = some row →
    row.tableId = tableId ∧ row.validity.beginOrder = order
  visible : ∀ order, maps.visibility.get? ⟨order, tableId⟩ = maps.objects.get? ⟨tableId, order⟩
  current : ∀ {row}, maps.current.get? tableId = some row ↔
    maps.objects.get? ⟨tableId, row.validity.beginOrder⟩ = some row ∧ row.validity.endOrder = none
  apart : ∀ {order later row next}, maps.objects.get? ⟨tableId, order⟩ = some row →
    maps.objects.get? ⟨tableId, later⟩ = some next → order < later →
    ∃ endOrder, row.validity.endOrder = some endOrder ∧ endOrder ≤ later
  past : ∀ {order row}, maps.objects.get? ⟨tableId, order⟩ = some row →
    order ≤ through ∧ ∀ endOrder, row.validity.endOrder = some endOrder → endOrder ≤ through

/-- Both states hold the same versions of the table. -/
structure SameTable (before after : TableMaps) (tableId : TableId) : Prop where
  objects : ∀ order, after.objects.get? ⟨tableId, order⟩ = before.objects.get? ⟨tableId, order⟩
  visibility : ∀ order, after.visibility.get? ⟨order, tableId⟩ = before.visibility.get? ⟨order, tableId⟩
  current : after.current.get? tableId = before.current.get? tableId

variable {before middle after : TableMaps} {through order : CatalogOrderId} {tableId : TableId}

theorem SameTable.refl (maps : TableMaps) (tableId : TableId) : SameTable maps maps tableId :=
  ⟨fun _ => rfl, fun _ => rfl, rfl⟩

theorem SameTable.trans (first : SameTable before middle tableId) (second : SameTable middle after tableId) :
    SameTable before after tableId :=
  ⟨fun order => (second.objects order).trans (first.objects order),
    fun order => (second.visibility order).trans (first.visibility order), second.current.trans first.current⟩

theorem SoundFor.same (sound : before.SoundFor through tableId) (same : SameTable before after tableId) :
    after.SoundFor through tableId where
  named found := sound.named (same.objects _ ▸ found)
  visible order := by rw [same.visibility, same.objects, sound.visible]
  current := by
    intro row
    rw [same.current, same.objects]
    exact sound.current
  apart found next := sound.apart (same.objects _ ▸ found) (same.objects _ ▸ next)
  past found := sound.past (same.objects _ ▸ found)

theorem SoundFor.mono (sound : before.SoundFor through tableId) (later : through ≤ order) :
    before.SoundFor order tableId where
  named := sound.named
  visible := sound.visible
  current := sound.current
  apart := sound.apart
  past found := ⟨(sound.past found).1.trans later, fun endOrder ended => ((sound.past found).2 endOrder ended).trans later⟩

/-- None of the families knows the table. -/
structure NoVersions (maps : TableMaps) (tableId : TableId) : Prop where
  objects : ∀ order, maps.objects.get? ⟨tableId, order⟩ = none
  visibility : ∀ order, maps.visibility.get? ⟨order, tableId⟩ = none
  current : maps.current.get? tableId = none

theorem NoVersions.same (none : NoVersions before tableId) (same : SameTable before after tableId) :
    NoVersions after tableId where
  objects order := (same.objects order).trans (none.objects order)
  visibility order := (same.visibility order).trans (none.visibility order)
  current := same.current.trans none.current

theorem NoVersions.sound (missing : NoVersions after tableId) : after.SoundFor through tableId where
  named := by
    intro order row found
    simp [missing.objects] at found
  visible order := by rw [missing.visibility, missing.objects]
  current := by
    intro row
    simp [missing.objects, missing.current]
  apart := by
    intro order later row next found
    simp [missing.objects] at found
  past := by
    intro order row found
    simp [missing.objects] at found

/-- A version is opened for the table, after the version it replaces, if any, is closed. -/
structure Opens (before after : TableMaps) (order : CatalogOrderId) (tableId : TableId) (next : TableRow) : Prop where
  objects : ∀ query, after.objects.get? ⟨tableId, query⟩ =
    if query = order then some next
    else (before.objects.get? ⟨tableId, query⟩).map fun row =>
      if before.current.get? tableId = some row then row.withEndOrder (some order) else row
  visibility : ∀ query, after.visibility.get? ⟨query, tableId⟩ =
    if query = order then some next
    else (before.visibility.get? ⟨query, tableId⟩).map fun row =>
      if before.current.get? tableId = some row then row.withEndOrder (some order) else row
  current : after.current.get? tableId = some next

/-- The current version of the table is closed and no other one opened. -/
structure Closes (before after : TableMaps) (order : CatalogOrderId) (tableId : TableId) : Prop where
  objects : ∀ query, after.objects.get? ⟨tableId, query⟩ =
    (before.objects.get? ⟨tableId, query⟩).map fun row =>
      if before.current.get? tableId = some row then row.withEndOrder (some order) else row
  visibility : ∀ query, after.visibility.get? ⟨query, tableId⟩ =
    (before.visibility.get? ⟨query, tableId⟩).map fun row =>
      if before.current.get? tableId = some row then row.withEndOrder (some order) else row
  current : after.current.get? tableId = none

section

variable (sound : before.SoundFor through tableId)

include sound

/-- A version without an end is the current one. -/
theorem SoundFor.current_of_open {row : TableRow}
    (found : before.objects.get? ⟨tableId, order⟩ = some row) (opened : row.validity.endOrder = none) :
    before.current.get? tableId = some row := by
  refine sound.current.mpr ⟨?_, opened⟩
  rw [(sound.named found).2]
  exact found

/-- What becomes of a stored version when the current one is closed. -/
theorem SoundFor.closed (later : through < order) {query : CatalogOrderId}
    {row : TableRow} (found : (before.objects.get? ⟨tableId, query⟩).map (fun row =>
      if before.current.get? tableId = some row then row.withEndOrder (some order) else row) = some row) :
    (row.tableId = tableId ∧ row.validity.beginOrder = query) ∧ query ≤ through ∧
      ∃ endOrder, row.validity.endOrder = some endOrder ∧ endOrder ≤ order ∧
        ∀ {next nextRow}, before.objects.get? ⟨tableId, next⟩ = some nextRow → query < next → endOrder ≤ next := by
  obtain ⟨stored, primary, same⟩ := Option.map_eq_some_iff.mp found
  obtain ⟨named, begun⟩ := sound.named primary
  split at same
  · rename_i isCurrent
    subst same
    refine ⟨⟨named, begun⟩, (sound.past primary).1, order, rfl, le_rfl, ?_⟩
    intro next nextRow nextFound after
    obtain ⟨endOrder, ended, _⟩ := sound.apart primary nextFound after
    have opened := (sound.current.mp isCurrent).2
    simp [opened] at ended
  · rename_i notCurrent
    subst same
    cases ended : stored.validity.endOrder with
    | none => exact absurd (sound.current_of_open primary ended) notCurrent
    | some endOrder =>
      have bounded := (sound.past primary).2 endOrder ended
      refine ⟨⟨named, begun⟩, (sound.past primary).1, endOrder, rfl, bounded.trans later.le, ?_⟩
      intro next nextRow nextFound after
      obtain ⟨other, sameEnd, before⟩ := sound.apart primary nextFound after
      rw [ended] at sameEnd
      exact Option.some.inj sameEnd ▸ before

theorem SoundFor.opens (later : through < order) {next : TableRow}
    (opens : Opens before after order tableId next) (named : next.tableId = tableId)
    (begins : next.validity = ⟨order, none⟩) : after.SoundFor order tableId where
  named := by
    intro query row found
    rw [opens.objects] at found
    split at found
    · rename_i same
      obtain rfl := Option.some.inj found
      exact ⟨named, by rw [begins, same]⟩
    · exact (sound.closed later found).1
  visible query := by rw [opens.visibility, opens.objects, sound.visible]
  current := by
    intro row
    rw [opens.current, opens.objects]
    split
    · rename_i begun
      constructor
      · intro same
        exact ⟨same, by rw [← Option.some.inj same, begins]⟩
      · exact fun found => found.1
    · rename_i elsewhere
      constructor
      · intro same
        exact absurd (by rw [← Option.some.inj same, begins]) elsewhere
      · rintro ⟨found, opened⟩
        obtain ⟨_, _, endOrder, ended, _⟩ := sound.closed later found
        simp [opened] at ended
  apart := by
    intro query following row other found otherFound above
    rw [opens.objects] at found otherFound
    split at found
    · rename_i same
      rw [if_neg (by rw [← same]; exact above.ne')] at otherFound
      obtain ⟨_, notLater, _⟩ := sound.closed later otherFound
      have := notLater.trans_lt later
      exact absurd (above.trans this) (by rw [same]; exact lt_irrefl _)
    · obtain ⟨_, _, endOrder, ended, notAfter, bounded⟩ := sound.closed later found
      refine ⟨endOrder, ended, ?_⟩
      split at otherFound
      · rename_i same
        exact same ▸ notAfter
      · obtain ⟨stored, primary, _⟩ := Option.map_eq_some_iff.mp otherFound
        exact bounded primary above
  past := by
    intro query row found
    rw [opens.objects] at found
    split at found
    · rename_i same
      obtain rfl := Option.some.inj found
      refine ⟨same.le, ?_⟩
      intro endOrder ended
      simp [begins] at ended
    · obtain ⟨_, notLater, endOrder, ended, notAfter, _⟩ := sound.closed later found
      refine ⟨notLater.trans later.le, ?_⟩
      intro other otherEnd
      rw [ended] at otherEnd
      exact Option.some.inj otherEnd ▸ notAfter

theorem SoundFor.closes (later : through < order)
    (closes : Closes before after order tableId) : after.SoundFor order tableId where
  named found := (sound.closed later (closes.objects _ ▸ found)).1
  visible query := by rw [closes.visibility, closes.objects, sound.visible]
  current := by
    intro row
    rw [closes.current, closes.objects]
    constructor
    · intro found
      simp at found
    · rintro ⟨found, opened⟩
      obtain ⟨_, _, endOrder, ended, _⟩ := sound.closed later found
      simp [opened] at ended
  apart := by
    intro query following row other found otherFound above
    rw [closes.objects] at found otherFound
    obtain ⟨_, _, endOrder, ended, _, bounded⟩ := sound.closed later found
    obtain ⟨stored, primary, _⟩ := Option.map_eq_some_iff.mp otherFound
    exact ⟨endOrder, ended, bounded primary above⟩
  past := by
    intro query row found
    rw [closes.objects] at found
    obtain ⟨_, notLater, endOrder, ended, notAfter, _⟩ := sound.closed later found
    refine ⟨notLater.trans later.le, ?_⟩
    intro other otherEnd
    rw [ended] at otherEnd
    exact Option.some.inj otherEnd ▸ notAfter

/-- At most one version of a table is visible at an order. -/
theorem SoundFor.unique {left right : TableRow} {first second : CatalogOrderId}
    {snapshotOrder : CatalogOrderId} (leftFound : before.objects.get? ⟨tableId, first⟩ = some left)
    (rightFound : before.objects.get? ⟨tableId, second⟩ = some right)
    (leftVisible : left.validity.isVisibleAt snapshotOrder = true)
    (rightVisible : right.validity.isVisibleAt snapshotOrder = true) : left = right := by
  obtain ⟨leftBegun, leftOpen⟩ := ValidityWindow.isVisibleAt_iff.mp leftVisible
  obtain ⟨rightBegun, rightOpen⟩ := ValidityWindow.isVisibleAt_iff.mp rightVisible
  rw [(sound.named leftFound).2] at leftBegun
  rw [(sound.named rightFound).2] at rightBegun
  rcases lt_trichotomy first second with below | same | above
  · obtain ⟨endOrder, ended, notAfter⟩ := sound.apart leftFound rightFound below
    exact absurd (leftOpen endOrder ended) (not_lt.mpr (notAfter.trans rightBegun))
  · rw [same] at leftFound
    exact Option.some.inj (leftFound.symm.trans rightFound)
  · obtain ⟨endOrder, ended, notAfter⟩ := sound.apart rightFound leftFound above
    exact absurd (rightOpen endOrder ended) (not_lt.mpr (notAfter.trans leftBegun))

end

end TableMaps

/-! ## The listings -/

/-- The row is a stored version of its table that the snapshot sees. -/
def CatalogKv.SeesTable (kv : CatalogKv) (snapshotOrder : CatalogOrderId) (row : TableRow) : Prop :=
  kv.tableObject.get? ⟨row.tableId, row.validity.beginOrder⟩ = some row ∧ row.validity.isVisibleAt snapshotOrder = true

/-- The listings and the single loads return the same rows, and so does the list of current rows at the latest
snapshot. -/
def TableListingsAgree (kv : CatalogKv) : Prop :=
  (∀ snapshotOrder,
    listTablesAtFromVisibilityIndex kv snapshotOrder = listTablesAtFromHistory kv snapshotOrder ∧
    (∀ tableId row, loadTableAt kv tableId snapshotOrder = some row ↔
      row ∈ listTablesAtFromHistory kv snapshotOrder ∧ row.tableId = tableId) ∧
    listTablesAt kv snapshotOrder = listTablesAtFromHistory kv snapshotOrder) ∧
  ∀ latest, latestSnapshot kv = some latest →
    listCurrentTableRows kv = listTablesAtFromHistory kv latest.order

instance : Std.Irrefl fun left right : TableRow => left.tableId < right.tableId := ⟨fun _ => lt_irrefl _⟩

instance : Std.Antisymm fun left right : TableRow => left.tableId < right.tableId :=
  ⟨fun _ _ below above => absurd (below.trans above) (lt_irrefl _)⟩

theorem TableRow.withBeginOrder_eq {row : TableRow} (begun : row.validity.beginOrder = order) :
    row.withBeginOrder order = row := by
  subst begun
  rfl

/-- Versions that agree when they belong to one table are listed by table. -/
theorem visibleTables_eq {rows : List TableRow} {snapshotOrder : CatalogOrderId}
    (agree : ∀ left ∈ rows.filter fun row => row.validity.isVisibleAt snapshotOrder,
      ∀ right ∈ rows.filter fun row => row.validity.isVisibleAt snapshotOrder,
      left.tableId = right.tableId → left = right) :
    (∀ row, row ∈ visibleTables rows snapshotOrder ↔ row ∈ rows ∧ row.validity.isVisibleAt snapshotOrder = true) ∧
      (visibleTables rows snapshotOrder).Pairwise fun left right => left.tableId < right.tableId := by
  have stored {tableId : TableId} {row : TableRow} :
      (OrderedMap.empty.insertAll TableRow.tableId (rows.filter fun row =>
        row.validity.isVisibleAt snapshotOrder)).get? tableId = some row ↔
        row ∈ (rows.filter fun row => row.validity.isVisibleAt snapshotOrder) ∧ row.tableId = tableId := by
    rw [OrderedMap.get?_insertAll_of_agree _ _ agree]
    simp
  constructor
  · intro row
    rw [← List.mem_filter (p := fun row : TableRow => row.validity.isVisibleAt snapshotOrder)]
    constructor
    · intro member
      obtain ⟨⟨tableId, found⟩, entry, rfl⟩ := List.mem_map.mp member
      exact (stored.mp ((OrderedMap.get?_eq_some_iff _).mpr entry)).1
    · intro member
      exact List.mem_map.mpr ⟨(row.tableId, row), (OrderedMap.get?_eq_some_iff _).mp (stored.mpr ⟨member, rfl⟩), rfl⟩
  · refine List.pairwise_map.mpr (List.Pairwise.imp_of_mem ?_ (OrderedMap.sorted _))
    intro left right leftEntry rightEntry below
    rw [(stored.mp ((OrderedMap.get?_eq_some_iff _).mpr leftEntry)).2,
      (stored.mp ((OrderedMap.get?_eq_some_iff _).mpr rightEntry)).2]
    exact below

section

variable {kv : CatalogKv} {through snapshotOrder : CatalogOrderId} {row : TableRow}

section

variable (sound : ∀ tableId, kv.tableMaps.SoundFor through tableId)

include sound

theorem mem_historyRows :
    row ∈ kv.tableObject.entries.map (fun entry => entry.2.withBeginOrder entry.1.order) ↔
      kv.tableObject.get? ⟨row.tableId, row.validity.beginOrder⟩ = some row := by
  constructor
  · intro member
    obtain ⟨⟨key, stored⟩, entry, rfl⟩ := List.mem_map.mp member
    have found := (OrderedMap.get?_eq_some_iff _).mpr entry
    obtain ⟨named, begun⟩ := (sound key.tableId).named found
    rw [TableRow.withBeginOrder_eq begun, named, begun]
    exact found
  · intro found
    refine List.mem_map.mpr ⟨(⟨row.tableId, row.validity.beginOrder⟩, row), (OrderedMap.get?_eq_some_iff _).mp found, ?_⟩
    exact TableRow.withBeginOrder_eq rfl

theorem mem_visibilityRows :
    row ∈ (kv.tableVisibility.scan fun key => key.beginOrder ≤ snapshotOrder).map
        (fun entry => entry.2.withBeginOrder entry.1.beginOrder) ↔
      kv.tableObject.get? ⟨row.tableId, row.validity.beginOrder⟩ = some row ∧
        row.validity.beginOrder ≤ snapshotOrder := by
  constructor
  · intro member
    obtain ⟨⟨key, stored⟩, entry, rfl⟩ := List.mem_map.mp member
    obtain ⟨indexed, begunBy⟩ := OrderedMap.mem_scan.mp entry
    have found : kv.tableMaps.objects.get? ⟨key.tableId, key.beginOrder⟩ = some stored :=
      ((sound key.tableId).visible key.beginOrder).symm.trans indexed
    obtain ⟨named, begun⟩ := (sound key.tableId).named found
    rw [TableRow.withBeginOrder_eq begun, named, begun]
    exact ⟨found, of_decide_eq_true begunBy⟩
  · rintro ⟨found, begunBy⟩
    have indexed : kv.tableVisibility.get? ⟨row.validity.beginOrder, row.tableId⟩ = some row :=
      ((sound row.tableId).visible row.validity.beginOrder).trans found
    refine List.mem_map.mpr ⟨(⟨row.validity.beginOrder, row.tableId⟩, row), OrderedMap.mem_scan.mpr ⟨indexed, ?_⟩, ?_⟩
    · exact decide_eq_true begunBy
    · exact TableRow.withBeginOrder_eq rfl

/-- The full history lists what the snapshot sees. -/
theorem listTablesAtFromHistory_eq
    (snapshotOrder : CatalogOrderId) :
    (∀ row, row ∈ listTablesAtFromHistory kv snapshotOrder ↔ kv.SeesTable snapshotOrder row) ∧
      (listTablesAtFromHistory kv snapshotOrder).Pairwise fun left right => left.tableId < right.tableId := by
  have listed := @visibleTables_eq (kv.tableObject.entries.map fun entry => entry.2.withBeginOrder entry.1.order)
    snapshotOrder ?_
  · refine ⟨?_, listed.2⟩
    intro row
    rw [CatalogKv.SeesTable, ← mem_historyRows sound]
    exact listed.1 row
  · intro left leftMember right rightMember same
    obtain ⟨leftRow, leftVisible⟩ := List.mem_filter.mp leftMember
    obtain ⟨rightRow, rightVisible⟩ := List.mem_filter.mp rightMember
    have leftFound := (mem_historyRows sound).mp leftRow
    rw [same] at leftFound
    exact (sound right.tableId).unique leftFound ((mem_historyRows sound).mp rightRow) leftVisible rightVisible

theorem listTablesAtFromVisibilityIndex_eq
    (snapshotOrder : CatalogOrderId) :
    listTablesAtFromVisibilityIndex kv snapshotOrder = listTablesAtFromHistory kv snapshotOrder := by
  obtain ⟨history, sorted⟩ := listTablesAtFromHistory_eq sound snapshotOrder
  have listed := @visibleTables_eq ((kv.tableVisibility.scan fun key => key.beginOrder ≤ snapshotOrder).map
    fun entry => entry.2.withBeginOrder entry.1.beginOrder) snapshotOrder ?_
  · refine List.Pairwise.eq_of_mem_iff listed.2 sorted ?_
    intro row
    rw [history]
    refine (listed.1 row).trans ?_
    rw [mem_visibilityRows sound]
    constructor
    · rintro ⟨⟨found, _⟩, visible⟩
      exact ⟨found, visible⟩
    · rintro ⟨found, visible⟩
      exact ⟨⟨found, (ValidityWindow.isVisibleAt_iff.mp visible).1⟩, visible⟩
  · intro left leftMember right rightMember same
    obtain ⟨leftRow, leftVisible⟩ := List.mem_filter.mp leftMember
    obtain ⟨rightRow, rightVisible⟩ := List.mem_filter.mp rightMember
    have leftFound := ((mem_visibilityRows sound).mp leftRow).1
    rw [same] at leftFound
    exact (sound right.tableId).unique leftFound ((mem_visibilityRows sound).mp rightRow).1 leftVisible rightVisible

theorem listCurrentTableRows_eq :
    listCurrentTableRows kv = listTablesAtFromHistory kv through := by
  obtain ⟨history, sorted⟩ := listTablesAtFromHistory_eq sound through
  have namedCurrent {tableId : TableId} {row : TableRow} (found : kv.currentTableRow.get? tableId = some row) :
      row.tableId = tableId := ((sound tableId).named ((sound tableId).current.mp found).1).1
  have currentSorted : (kv.currentTableRow.entries.map Prod.snd).Pairwise
      fun left right => left.tableId < right.tableId := by
    refine List.pairwise_map.mpr (List.Pairwise.imp_of_mem ?_ kv.currentTableRow.sorted)
    intro left right leftEntry rightEntry below
    rw [namedCurrent ((OrderedMap.get?_eq_some_iff _).mpr leftEntry),
      namedCurrent ((OrderedMap.get?_eq_some_iff _).mpr rightEntry)]
    exact below
  rw [listCurrentTableRows, List.Pairwise.insertionSort_eq (currentSorted.imp fun below => below.le)]
  refine List.Pairwise.eq_of_mem_iff currentSorted sorted ?_
  intro row
  rw [history]
  constructor
  · intro member
    obtain ⟨⟨tableId, stored⟩, entry, rfl⟩ := List.mem_map.mp member
    have isCurrent := (OrderedMap.get?_eq_some_iff _).mpr entry
    obtain ⟨found, opened⟩ := (sound tableId).current.mp isCurrent
    refine ⟨by rw [namedCurrent isCurrent]; exact found, ValidityWindow.isVisibleAt_iff.mpr ?_⟩
    refine ⟨((sound tableId).past found).1, ?_⟩
    intro endOrder ended
    simp [opened] at ended
  · rintro ⟨found, visible⟩
    obtain ⟨_, stillOpen⟩ := ValidityWindow.isVisibleAt_iff.mp visible
    have opened : row.validity.endOrder = none := by
      refine Option.eq_none_iff_forall_ne_some.mpr ?_
      intro endOrder ended
      exact absurd (stillOpen endOrder ended) (not_lt.mpr (((sound row.tableId).past found).2 endOrder ended))
    have isCurrent := (sound row.tableId).current_of_open found opened
    exact List.mem_map.mpr ⟨(row.tableId, row), (OrderedMap.get?_eq_some_iff _).mp isCurrent, rfl⟩

theorem loadTableAt_eq_some (tableId : TableId) :
    loadTableAt kv tableId snapshotOrder = some row ↔ kv.SeesTable snapshotOrder row ∧ row.tableId = tableId := by
  have inRange (key : TableObjectKey) : (decide (key.tableId = tableId) && decide (key.order ≤ snapshotOrder)) = true ↔
      key.tableId = tableId ∧ key.order ≤ snapshotOrder := by
    rw [Bool.and_eq_true]
    exact ⟨fun both => ⟨of_decide_eq_true both.1, of_decide_eq_true both.2⟩,
      fun both => ⟨decide_eq_true both.1, decide_eq_true both.2⟩⟩
  unfold loadTableAt
  constructor
  · intro loaded
    split at loaded
    · simp at loaded
    · rename_i key stored last
      obtain ⟨member, _⟩ := OrderedMap.getLast?_scan_eq_some.mp last
      obtain ⟨found, within⟩ := OrderedMap.mem_scan.mp member
      obtain ⟨rfl, _⟩ := (inRange key).mp within
      obtain ⟨named, begun⟩ := (sound key.tableId).named found
      rw [TableRow.withBeginOrder_eq begun] at loaded
      dsimp only at loaded
      split at loaded
      · rename_i visible
        obtain rfl := Option.some.inj loaded
        refine ⟨⟨?_, visible⟩, named⟩
        rw [named, begun]
        exact found
      · simp at loaded
  · rintro ⟨⟨found, visible⟩, rfl⟩
    obtain ⟨begunBy, stillOpen⟩ := ValidityWindow.isVisibleAt_iff.mp visible
    have last : (kv.tableObject.scan fun key => decide (key.tableId = row.tableId) &&
        decide (key.order ≤ snapshotOrder)).getLast? = some (⟨row.tableId, row.validity.beginOrder⟩, row) := by
      refine OrderedMap.getLast?_scan_eq_some.mpr ⟨OrderedMap.mem_scan.mpr ⟨found, (inRange _).mpr ⟨rfl, begunBy⟩⟩, ?_⟩
      rintro ⟨⟨otherTable, otherOrder⟩, other⟩ member
      obtain ⟨otherFound, within⟩ := OrderedMap.mem_scan.mp member
      obtain ⟨sameTable, otherBegun⟩ := (inRange _).mp within
      dsimp only at sameTable otherBegun otherFound
      subst sameTable
      -- A later version would have closed the visible one by then.
      by_contra notBefore
      have above := TableObjectKey.order_lt (not_le.mp notBefore)
      obtain ⟨endOrder, ended, notAfter⟩ := (sound row.tableId).apart found otherFound above
      exact absurd (stillOpen endOrder ended) (not_lt.mpr (notAfter.trans otherBegun))
    rw [last]
    dsimp only
    rw [TableRow.withBeginOrder_eq rfl, if_pos visible]

end

/-- Sound versions up to the latest snapshot are listed alike in every way. -/
theorem tableListingsAgree_of_sound (latest : SnapshotRow) (isLatest : latestSnapshot kv = some latest)
    (sound : ∀ tableId, kv.tableMaps.SoundFor latest.order tableId) : TableListingsAgree kv := by
  refine ⟨?_, ?_⟩
  · intro snapshotOrder
    refine ⟨listTablesAtFromVisibilityIndex_eq sound snapshotOrder, ?_, ?_⟩
    · intro tableId row
      rw [(listTablesAtFromHistory_eq sound snapshotOrder).1]
      exact loadTableAt_eq_some sound tableId
    · unfold listTablesAt
      dsimp only
      split
      · rename_i atLatest
        rw [isLatest, Option.any_some] at atLatest
        have same : latest.order = snapshotOrder := of_decide_eq_true atLatest.1
        rw [← same]
        exact listCurrentTableRows_eq sound
      · split
        · exact listTablesAtFromVisibilityIndex_eq sound snapshotOrder
        · rfl
  · intro other isOther
    obtain rfl := Option.some.inj (isLatest.symm.trans isOther)
    exact listCurrentTableRows_eq sound

end

end DucklakeCatalog
