import DucklakeCatalog.Run.InlineDeletions
import DucklakeCatalog.Table.Versions

namespace DucklakeCatalog

open KeyedStore

/-! ## Staged table versions -/

/-- The staged part of the three families. -/
def KvBatch.tables (batch : KvBatch) :
    Staged TableObjectKey TableRow × Staged TableVisibilityKey TableRow × Staged TableId TableRow :=
  (batch.tableObject, batch.tableVisibility, batch.currentTableRow)

theorem CatalogKv.commit_tableMaps_congr (kv : CatalogKv) {before after : KvBatch}
    (same : after.tables = before.tables) : (kv.commit after).tableMaps = (kv.commit before).tableMaps := by
  simp only [KvBatch.tables, Prod.mk.injEq] at same
  simp only [CatalogKv.tableMaps, CatalogKv.commit, same]

variable {table row : TableRow} {state : List DroppedTable × KvBatch} {latest : SnapshotRow}
  {operation : CatalogOperation}
variable {previous : TableRow} {replacements : List TableVersionReplacement} {renames : List TableRename}

namespace TableMaps

/-- Everything one commit can do to a table. -/
inductive Step (order : CatalogOrderId) (tableId : TableId) (before after : TableMaps) : Prop
  | same (same : SameTable before after tableId)
  | opens (opens : Opens before after order tableId next) (named : next.tableId = tableId)
      (begins : next.validity = ⟨order, none⟩)
  | closes (closes : Closes before after order tableId)

variable {before after : TableMaps} {through order : CatalogOrderId} {tableId : TableId}

theorem Step.sound (step : Step order tableId before after) (sound : before.SoundFor through tableId)
    (later : through < order) : after.SoundFor order tableId := by
  cases step with
  | same same => exact (sound.same same).mono later.le
  | opens opens named begins => exact sound.opens later opens named begins
  | closes closes => exact sound.closes later closes

def replace (maps : TableMaps) (order : CatalogOrderId) (replacement : TableVersionReplacement) : TableMaps :=
  let tableId := replacement.tableId
  let beginOrder := replacement.previous.validity.beginOrder
  let previous := replacement.previous.withEndOrder (some order)
  let next := { replacement.next with validity := ⟨order, none⟩ }
  { objects := (maps.objects.insert ⟨tableId, beginOrder⟩ previous).insert ⟨tableId, order⟩ next
    visibility := (maps.visibility.insert ⟨beginOrder, tableId⟩ previous).insert ⟨order, tableId⟩ next
    current := maps.current.insert tableId next }

def close (maps : TableMaps) (order : CatalogOrderId) (table : TableRow) : TableMaps where
  objects := maps.objects.insert ⟨table.tableId, table.validity.beginOrder⟩ (table.withEndOrder (some order))
  visibility := maps.visibility.insert ⟨table.validity.beginOrder, table.tableId⟩ (table.withEndOrder (some order))
  current := maps.current.erase table.tableId

theorem replace_other (maps : TableMaps) (order : CatalogOrderId) {replacement : TableVersionReplacement}
    (other : tableId ≠ replacement.tableId) : SameTable maps (maps.replace order replacement) tableId where
  objects query := by simp [replace, OrderedMap.get?_insert, other]
  visibility query := by simp [replace, OrderedMap.get?_insert, other]
  current := by simp [replace, OrderedMap.get?_insert, other]

theorem close_other (maps : TableMaps) (order : CatalogOrderId) (other : tableId ≠ table.tableId) :
    SameTable maps (maps.close order table) tableId where
  objects query := by simp [close, OrderedMap.get?_insert, other]
  visibility query := by simp [close, OrderedMap.get?_insert, other]
  current := by simp [close, OrderedMap.get?_erase, other]

/-- Writing the closed current version touches no other version of its table. -/
theorem SoundFor.closeCurrent (sound : before.SoundFor through tableId)
    (isCurrent : before.current.get? tableId = some previous) (query order : CatalogOrderId) :
    (if query = previous.validity.beginOrder then some (previous.withEndOrder (some order))
      else before.objects.get? ⟨tableId, query⟩) = (before.objects.get? ⟨tableId, query⟩).map fun row =>
        if before.current.get? tableId = some row then row.withEndOrder (some order) else row := by
  have stored := (sound.current.mp isCurrent).1
  split
  · rename_i begun
    rw [begun, stored, Option.map_some, if_pos isCurrent]
  · rename_i elsewhere
    cases found : before.objects.get? ⟨tableId, query⟩ with
    | none => rfl
    | some row =>
      rw [Option.map_some, if_neg]
      intro alsoCurrent
      obtain rfl := Option.some.inj (isCurrent.symm.trans alsoCurrent)
      exact elsewhere (sound.named found).2.symm

theorem replace_opens (sound : before.SoundFor through replacement.tableId)
    (isCurrent : before.current.get? replacement.tableId = some replacement.previous) (order : CatalogOrderId) :
    Opens before (before.replace order replacement) order replacement.tableId
      { replacement.next with validity := ⟨order, none⟩ } where
  objects query := by
    rw [← sound.closeCurrent isCurrent]
    simp only [replace, OrderedMap.get?_insert, TableObjectKey.mk.injEq, true_and]
  visibility query := by
    rw [sound.visible, ← sound.closeCurrent isCurrent, ← sound.visible]
    simp only [replace, OrderedMap.get?_insert, TableVisibilityKey.mk.injEq, and_true]
  current := by simp [replace]

theorem close_closes (sound : before.SoundFor through table.tableId)
    (isCurrent : before.current.get? table.tableId = some table) (order : CatalogOrderId) :
    Closes before (before.close order table) order table.tableId where
  objects query := by
    rw [← sound.closeCurrent isCurrent]
    simp only [close, OrderedMap.get?_insert, TableObjectKey.mk.injEq, true_and]
  visibility query := by
    rw [sound.visible, ← sound.closeCurrent isCurrent, ← sound.visible]
    simp only [close, OrderedMap.get?_insert, TableVisibilityKey.mk.injEq, and_true]
  current := by simp [close, OrderedMap.get?_erase]

/-- Steps of distinct tables, taken one after another in the same commit. -/
theorem foldl_sound {ι : Type} {act : TableMaps → ι → TableMaps} {tableOf : ι → TableId} {items : List ι}
    (others : ∀ maps item tableId, tableId ≠ tableOf item → SameTable maps (act maps item) tableId)
    (steps : ∀ maps, ∀ item ∈ items, SameTable before maps (tableOf item) →
      Step order (tableOf item) maps (act maps item))
    (sound : ∀ tableId, before.SoundFor through tableId) (later : through < order)
    (distinct : (items.map tableOf).Nodup) : ∀ tableId, (items.foldl act before).SoundFor order tableId := by
  -- Tables still to come are as they were, the other ones are sound at the new order.
  suffices following : ∀ maps, (∀ tableId ∈ items.map tableOf, SameTable before maps tableId) →
      (∀ tableId ∉ items.map tableOf, maps.SoundFor order tableId) →
      ∀ tableId, (items.foldl act maps).SoundFor order tableId by
    refine following before (fun tableId _ => .refl before tableId) ?_
    intro tableId _
    exact (sound tableId).mono later.le
  induction items with
  | nil => exact fun maps _ done tableId => done tableId List.not_mem_nil
  | cons item rest ih =>
    intro maps waiting done
    obtain ⟨notLater, distinctRest⟩ := List.nodup_cons.mp distinct
    refine ih (fun maps later member => steps maps later (List.mem_cons_of_mem _ member)) distinctRest
      (act maps item) ?_ ?_
    · intro tableId member
      have other : tableId ≠ tableOf item := fun same => notLater (same ▸ member)
      exact (waiting tableId (List.mem_cons_of_mem _ member)).trans (others maps item tableId other)
    · intro tableId notInRest
      by_cases same : tableId = tableOf item
      · subst same
        have untouched := waiting _ List.mem_cons_self
        exact (steps maps item List.mem_cons_self untouched).sound ((sound _).same untouched) later
      · refine (done tableId ?_).same (others maps item tableId same)
        simp only [List.map_cons, List.mem_cons, not_or]
        exact ⟨same, notInRest⟩

end TableMaps

/-- Each replacement takes the current version of its own table. -/
structure ReplacesCurrent (kv : CatalogKv) (replacements : List TableVersionReplacement) : Prop where
  distinct : (replacements.map TableVersionReplacement.tableId).Nodup
  current : ∀ replacement ∈ replacements, kv.currentTableRow.get? replacement.tableId = some replacement.previous
  named : ∀ replacement ∈ replacements, replacement.next.tableId = replacement.tableId

section

variable {kv : CatalogKv} {batch : KvBatch} {through order : CatalogOrderId} {now : Int}

theorem commit_foldl_stageTableReplacement (replacements : List TableVersionReplacement) (batch : KvBatch) :
    (kv.commit (replacements.foldl (stageTableReplacement kv order) batch)).tableMaps =
      replacements.foldl (fun maps replacement => maps.replace order replacement) (kv.commit batch).tableMaps := by
  induction replacements generalizing batch with
  | nil => rfl
  | cons replacement rest ih =>
    rw [List.foldl_cons, List.foldl_cons, ih]
    congr 1
    simp [CatalogKv.tableMaps, CatalogKv.commit, stageTableReplacement, TableMaps.replace, stageMaxCatalogIdWatermark]

variable {sequence : RawSnapshotSequence}

/-- Replacing current versions keeps every table sound. -/
theorem stageTableReplacements_sound
    (replaces : ReplacesCurrent kv replacements) (sound : ∀ tableId, kv.tableMaps.SoundFor through tableId)
    (later : through < order) (staged : stageTableReplacements kv now sequence replacements order = .ok ((), batch)) :
    ∀ tableId, (kv.commit batch).tableMaps.SoundFor order tableId := by
  simp only [stageTableReplacements, Except.ok.injEq, Prod.mk.injEq, true_and] at staged
  rw [← staged, commit_foldl_stageTableReplacement]
  refine TableMaps.foldl_sound (fun maps replacement tableId other => maps.replace_other order other) ?_ sound later
    replaces.distinct
  intro maps replacement member untouched
  have isCurrent : maps.current.get? replacement.tableId = some replacement.previous :=
    untouched.current.trans (replaces.current replacement member)
  exact .opens (TableMaps.replace_opens ((sound _).same untouched) isCurrent order) (replaces.named replacement member) rfl

/-- What expiring one file of a dropped table does beyond the expiry of the data file itself. -/
theorem expireDroppedTableFile_ok {state next : DroppedTable × KvBatch} {attached : AttachedDataFile}
    (success : expireDroppedTableFile kv now order state attached = .ok next) :
    ∃ dataFile expired, stageExpireCurrentDataFile kv state.2 attached.dataFile.dataFileId order = .ok (dataFile, expired) ∧
      next.1.table = state.1.table ∧ ∃ deletes dataFiles deleteFiles, expired.ChangesDeleteFiles deletes ∧
        next.2 = { deletes with
          scheduledDataFileCleanup := dataFiles, scheduledDeleteFileCleanup := deleteFiles } := by
  unfold expireDroppedTableFile at success
  simp only [bind_eq_ok] at success
  obtain ⟨⟨dataFile, expired⟩, expires, success⟩ := success
  refine ⟨dataFile, expired, expires, ?_⟩
  dsimp only at success
  split at success
  · simp only [pure_eq_ok] at success
    rw [← success]
    exact ⟨rfl, expired, _, _, .refl expired, rfl⟩
  · simp only [bind_eq_ok, pure_eq_ok] at success
    obtain ⟨closed, ends, rfl⟩ := success
    obtain ⟨_, _, _, _, _, rfl⟩ := stageExpireCurrentDeleteFile_ok ends
    exact ⟨rfl, _, _, _, ⟨_, _, _, _, _, _, _, rfl⟩, rfl⟩

theorem expireDroppedTableFile_tables {state next : DroppedTable × KvBatch} {attached : AttachedDataFile}
    (success : expireDroppedTableFile kv now order state attached = .ok next) :
    next.2.tables = state.2.tables ∧ next.2.latestSnapshotRow = state.2.latestSnapshotRow ∧
      next.1.table = state.1.table := by
  obtain ⟨_, _, expires, same, _, _, _, ⟨_, _, _, _, _, _, _, rfl⟩, staged⟩ := expireDroppedTableFile_ok success
  obtain ⟨_, _, _, _, _, _, _, rfl⟩ := stageExpireCurrentDataFile_ok expires
  rw [staged]
  exact ⟨rfl, rfl, same⟩

theorem stageDropTable_tables {next : List DroppedTable × KvBatch} {tableId : TableId}
    (success : stageDropTable kv now order state tableId = .ok next)
    (unwritten : state.2.currentTableRow.writes = []) :
    ∃ table, kv.currentTableRow.get? tableId = some table ∧ next.2.currentTableRow.writes = [] ∧
      (kv.commit next.2).tableMaps = (kv.commit state.2).tableMaps.close order table := by
  unfold stageDropTable at success
  simp only [bind_eq_ok, pure_eq_ok] at success
  obtain ⟨table, loads, ⟨dropped, expired⟩, expires, rfl⟩ := success
  have isCurrent := loadCurrentTableRow_ok loads
  have untouched := foldlM_invariant (fun reached : DroppedTable × KvBatch =>
      reached.2.tables = state.2.tables ∧ reached.1.table = table.withEndOrder (some order)) expires ⟨rfl, rfl⟩ (by
    intro reached attached following _ soFar taken
    obtain ⟨tables, _, table⟩ := expireDroppedTableFile_tables taken
    exact ⟨tables.trans soFar.1, table.trans soFar.2⟩)
  obtain ⟨sameTables, closed⟩ := untouched
  simp only [KvBatch.tables, Prod.mk.injEq] at sameTables
  obtain ⟨objects, visibility, current⟩ := sameTables
  refine ⟨table, isCurrent, ?_, ?_⟩
  · simp only [stageTableObject, Staged.delete, current]
    exact unwritten
  · have silent : ¬state.2.currentTableRow.Writes table.tableId := by
      rintro ⟨value, member⟩
      simp [unwritten] at member
    simp only at closed
    simp [CatalogKv.tableMaps, CatalogKv.commit, stageTableObject, TableMaps.close, closed, objects, visibility, current,
      OrderedMap.commit_delete _ _ _ silent, TableRow.withEndOrder]

variable {tableIds : List TableId} {schemaId : SchemaId} {payload : List UInt8} {rows : List InlineTableChunkRow}

theorem foldlM_stageDropTable_tables {next : List DroppedTable × KvBatch}
    (success : tableIds.foldlM (stageDropTable kv now order) state = .ok next)
    (unwritten : state.2.currentTableRow.writes = []) :
    ∃ tables, List.Forall₂ (fun tableId table => kv.currentTableRow.get? tableId = some table) tableIds tables ∧
      (kv.commit next.2).tableMaps =
        tables.foldl (fun maps table => maps.close order table) (kv.commit state.2).tableMaps := by
  induction tableIds generalizing state with
  | nil =>
    obtain rfl : state = next := by simpa [pure, Except.pure] using success
    exact ⟨[], .nil, rfl⟩
  | cons tableId rest ih =>
    rw [List.foldlM_cons, bind_eq_ok] at success
    obtain ⟨middle, taken, success⟩ := success
    obtain ⟨table, isCurrent, stillUnwritten, closed⟩ := stageDropTable_tables taken unwritten
    obtain ⟨tables, currents, maps⟩ := ih success stillUnwritten
    refine ⟨table :: tables, .cons isCurrent currents, ?_⟩
    rw [maps, closed]
    rfl

/-- Dropping current tables keeps every table sound. -/
theorem stageDropTables_sound {dropped : List DroppedTable}
    (distinct : tableIds.Nodup) (sound : ∀ tableId, kv.tableMaps.SoundFor through tableId) (later : through < order)
    (staged : stageDropTables kv now tableIds sequence order = .ok (dropped, batch)) :
    ∀ tableId, (kv.commit batch).tableMaps.SoundFor order tableId := by
  obtain ⟨tables, currents, maps⟩ := foldlM_stageDropTable_tables staged rfl
  have named {tableId : TableId} {table : TableRow} (isCurrent : kv.currentTableRow.get? tableId = some table) :
      table.tableId = tableId := ((sound tableId).named ((sound tableId).current.mp isCurrent).1).1
  have ids : tables.map TableRow.tableId = tableIds := by
    clear staged maps distinct
    induction currents with
    | nil => rfl
    | cons isCurrent _ ih => rw [List.map_cons, named isCurrent, ih]
  have allCurrent : ∀ table ∈ tables, kv.currentTableRow.get? table.tableId = some table := by
    clear staged maps distinct ids
    induction currents with
    | nil => exact fun table member => absurd member List.not_mem_nil
    | cons isCurrent _ ih =>
      intro table member
      rcases List.mem_cons.mp member with rfl | rest
      · rw [named isCurrent]
        exact isCurrent
      · exact ih table rest
  rw [maps]
  refine TableMaps.foldl_sound (fun maps table tableId other => maps.close_other order other) ?_ sound later
    (ids ▸ distinct)
  intro maps table member untouched
  have isCurrent : maps.current.get? table.tableId = some table := untouched.current.trans (allCurrent table member)
  exact .closes (TableMaps.close_closes ((sound _).same untouched) isCurrent order)

theorem rejectRepeatedIds_nodup {message : Nat → String} {ids : List Nat}
    (success : rejectRepeatedIds message ids = .ok ()) : ids.Nodup := by
  unfold rejectRepeatedIds at success
  rw [bind_eq_ok] at success
  obtain ⟨finished, success, _⟩ := success
  have apart := (foldlM_nodup (fun seen => seen) (fun id => id) success (by
    intro known id next taken
    split at taken
    · cases taken
    · rename_i fresh
      obtain rfl := Except.ok.inj taken
      exact ⟨fresh, rfl⟩)).1
  rwa [List.map_id'] at apart

theorem KvBatch.tables_besideFiles {before after : KvBatch} (same : after.besideFiles = before.besideFiles) :
    after.tables = before.tables := by
  have sameTables := congrArg KvBatch.tables same
  exact sameTables

theorem KvBatch.ChangesInlineEnds.tables {before after : KvBatch} (changes : before.ChangesInlineEnds after) :
    after.tables = before.tables := by
  obtain ⟨_, _, _, _, rfl⟩ := changes
  rfl

theorem KvBatch.ChangesInlineDeletions.tables {before after : KvBatch} (changes : before.ChangesInlineDeletions after) :
    after.tables = before.tables := by
  obtain ⟨_, rfl⟩ := changes
  rfl

theorem stageDataMutation_tables {input : DataMutationInput} {result : DataMutationCommit}
    (staged : stageDataMutation kv now input order = .ok (result, batch)) :
    batch.tables = ({} : KvBatch).tables := by
  obtain ⟨registered, closed, flushed, _, _, opening, closes, flushes, same⟩ := stageDataMutation_besideFiles staged
  have written : closed.tables = ({} : KvBatch).tables :=
    (stageCloseMaterializedInlineFileDeletions_changes closes).tables.trans
      ((KvBatch.tables_besideFiles opening).trans rfl)
  exact (KvBatch.tables_besideFiles same).trans
    ((stageNewInlineFileDeletions_changes flushed input.inlineFileDeletions order).tables.trans
      ((foldlM_stageFlushInlineTablePayloads_changes flushes).tables.trans written))

/-- A batch without table versions leaves every table alone. -/
theorem tableStep_of_untouched (untouched : batch.tables = ({} : KvBatch).tables) (tableId : TableId) :
    TableMaps.Step order tableId kv.tableMaps (kv.commit batch).tableMaps := by
  have same := kv.commit_tableMaps_congr untouched
  refine .same ?_
  rw [same]
  exact .refl kv.tableMaps tableId

theorem stageInlineTablePayload_tables {tableId : TableId}
    (staged : stageInlineTablePayload kv now tableId schemaId payload order = .ok (rows, batch)) :
    batch.tables = ({} : KvBatch).tables := by
  simp only [stageInlineTablePayload, bind_eq_ok, pure_eq_ok, Prod.mk.injEq] at staged
  obtain ⟨changed, changes, _, _, rfl, rfl⟩ := staged
  obtain ⟨_, _, _, rfl⟩ := stageInlineRowChangesForPayload_changes changes
  rfl

/-- A registration that moves its table replaces the current version of it. -/
theorem commit_stageInlineTablePayloadWithTable {previousTable : TableRow}
    (staged : stageInlineTablePayloadWithTable kv now table previousTable schemaId payload sequence order =
      .ok (rows, batch)) (earlier : previousTable.validity.beginOrder ≠ order) :
    (kv.commit batch).tableMaps = kv.tableMaps.replace order ⟨previousTable.tableId, previousTable,
      { previousTable with schemaId := table.schemaId, inlinedDataTables := table.inlinedDataTables }⟩ := by
  simp only [stageInlineTablePayloadWithTable, bind_eq_ok, pure_eq_ok, Prod.mk.injEq] at staged
  obtain ⟨changed, changes, chunks, _, rfl, rfl⟩ := staged
  obtain ⟨_, _, _, rfl⟩ := stageInlineRowChangesForPayload_changes changes
  simp [CatalogKv.tableMaps, CatalogKv.commit, stageTableVersion, stageTableObject, stageInlineTableChunks,
    stageMaxCatalogIdWatermark, stageMaxFileIdWatermark, TableMaps.replace, earlier, stageSnapshot, TableRow.withEndOrder]

section

variable (isLatest : latestSnapshot kv = some latest)

include isLatest

/-- The current rows are among those that the latest snapshot lists. -/
theorem listed_of_current
    (sound : ∀ tableId, kv.tableMaps.SoundFor latest.order tableId) {tableId : TableId}
    (isCurrent : kv.currentTableRow.get? tableId = some row) :
    row ∈ listTablesAt kv latest.order ∧ row.tableId = tableId := by
  obtain ⟨stored, _⟩ := (sound tableId).current.mp isCurrent
  have agree := tableListingsAgree_of_sound latest isLatest sound
  rw [(agree.1 latest.order).2.2, ← agree.2 latest isLatest]
  refine ⟨(List.mem_insertionSort _).mpr (List.mem_map.mpr ⟨(tableId, row), ?_, rfl⟩), ((sound tableId).named stored).1⟩
  exact (OrderedMap.get?_eq_some_iff _).mp isCurrent

/-- A new table has neither the id nor the name of a current one. -/
theorem validateCreateTable_apart
 (sound : ∀ tableId, kv.tableMaps.SoundFor latest.order tableId)
    (valid : validateCreateTable kv table = .ok ()) {tableId : TableId}
    (isCurrent : kv.currentTableRow.get? tableId = some row) :
    tableId ≠ table.tableId ∧ ¬(row.schemaId = table.schemaId ∧ row.name.toLower = table.name.toLower) := by
  obtain ⟨listed, named⟩ := listed_of_current isLatest sound isCurrent
  rw [validateCreateTable, isLatest, Option.elim_some] at valid
  have passes := forM_eq_ok_iff.mp valid row listed
  split_ifs at passes with sameId sameName
  exact ⟨named ▸ sameId, sameName⟩

/-- A new table has no current version, since the current rows are the ones its check lists. -/
theorem validateCreateTable_absent
 (sound : ∀ tableId, kv.tableMaps.SoundFor latest.order tableId)
    (valid : validateCreateTable kv table = .ok ()) : kv.currentTableRow.get? table.tableId = none := by
  refine Option.eq_none_iff_forall_ne_some.mpr ?_
  intro row isCurrent
  exact (validateCreateTable_apart isLatest sound valid isCurrent).1 rfl

end

/-- A table without a current version gets its first one. -/
theorem stageCreateTableRow_tableStep {created : TableRow} (absent : kv.currentTableRow.get? table.tableId = none)
    (staged : stageCreateTableRow kv now table kv.generatedOrderId = .ok (created, batch)) (tableId : TableId) :
    TableMaps.Step kv.generatedOrderId tableId kv.tableMaps (kv.commit batch).tableMaps := by
  obtain ⟨_, rfl⟩ := stageCreateTableRow_ok staged
  by_cases same : tableId = table.tableId
  · subst same
    have noCurrent : kv.tableMaps.current.get? table.tableId = none := absent
    have opened (stored : Option TableRow) : stored.map (fun row =>
        if kv.tableMaps.current.get? table.tableId = some row then row.withEndOrder (some kv.generatedOrderId)
        else row) = stored := by
      simp [noCurrent]
    refine @TableMaps.Step.opens _ _ _ _ { table with validity := ⟨kv.generatedOrderId, none⟩ } ⟨?_, ?_, ?_⟩ rfl rfl
    · intro query
      rw [opened]
      simp [CatalogKv.tableMaps, CatalogKv.commit, stageTableObject, stageMaxCatalogIdWatermark, stageSnapshot,
        OrderedMap.get?_insert]
    · intro query
      rw [opened]
      simp [CatalogKv.tableMaps, CatalogKv.commit, stageTableObject, stageMaxCatalogIdWatermark, stageSnapshot,
        OrderedMap.get?_insert]
    · simp [CatalogKv.tableMaps, CatalogKv.commit, stageTableObject, stageMaxCatalogIdWatermark, stageSnapshot]
  · refine .same ⟨?_, ?_, ?_⟩
    · intro query
      simp [CatalogKv.tableMaps, CatalogKv.commit, stageTableObject, stageMaxCatalogIdWatermark, stageSnapshot,
        OrderedMap.get?_insert, same]
    · intro query
      simp [CatalogKv.tableMaps, CatalogKv.commit, stageTableObject, stageMaxCatalogIdWatermark, stageSnapshot,
        OrderedMap.get?_insert, same]
    · simp [CatalogKv.tableMaps, CatalogKv.commit, stageTableObject, stageMaxCatalogIdWatermark, stageSnapshot,
        OrderedMap.get?_insert, same]

end

/-- Every commit leaves each table alone, opens a version of it or closes the current one. -/
theorem CatalogOperation.Commits.tableStep {kv : CatalogKv} {batch : KvBatch} (commits : operation.Commits kv batch)
    (isLatest : DucklakeCatalog.latestSnapshot kv = some latest)
    (past : latest.order < kv.generatedOrderId) (sound : ∀ tableId, kv.tableMaps.SoundFor latest.order tableId)
    (tableId : TableId) : TableMaps.Step kv.generatedOrderId tableId kv.tableMaps (kv.commit batch).tableMaps := by
  cases commits with
  | @createTable table _ _ _ valid staged =>
    have absent := validateCreateTable_absent isLatest sound valid
    exact stageCreateTableRow_tableStep absent staged tableId
  | appendDataFiles staged =>
    obtain ⟨appended, opening, flushes⟩ := stageAppendDataFiles_besideFiles staged
    exact tableStep_of_untouched ((foldlM_stageFlushInlineTablePayloads_changes flushes).tables.trans
      ((KvBatch.tables_besideFiles opening).trans rfl)) tableId
  | dataMutation _ staged => exact tableStep_of_untouched (stageDataMutation_tables staged) tableId
  | mergeAdjacent _ staged =>
    exact tableStep_of_untouched ((KvBatch.tables_besideFiles (stageMergeAdjacent_besideFiles staged)).trans rfl) tableId
  | rewriteDelete _ staged =>
    exact tableStep_of_untouched ((KvBatch.tables_besideFiles (stageRewriteDelete_besideFiles staged)).trans rfl) tableId
  | registerDeleteFiles staged =>
    have sameTables := KvBatch.tables_besideFiles (stageRegisterDeleteFiles_changes staged).besideFiles
    exact tableStep_of_untouched (sameTables.trans rfl) tableId
  | inlineFileDeletions staged =>
    exact tableStep_of_untouched (stageInlineFileDeletions_changes staged).tables tableId
  | registerInlinePayload _ staged => exact tableStep_of_untouched (stageInlineTablePayload_tables staged) tableId
  | @registerInlinePayloadWithTable table _ _ previousTable _ _ _ _ _ valid staged =>
    unfold inlineTableVersionToReplace at valid
    simp only [bind_eq_ok, pure_eq_ok, Prod.mk.injEq] at valid
    obtain ⟨_, _, _, _, previous, loads, _, _, rfl, rfl⟩ := valid
    have isCurrent : kv.currentTableRow.get? table.tableId = some previous := by
      cases found : kv.currentTableRow.get? table.tableId with
      | none => simp [found] at loads
      | some row => simpa [found] using loads
    have stored := ((sound table.tableId).current.mp isCurrent).1
    have named := ((sound table.tableId).named stored).1
    have earlier : previous.validity.beginOrder ≠ kv.generatedOrderId :=
      (((sound table.tableId).past stored).1.trans_lt past).ne
    rw [commit_stageInlineTablePayloadWithTable staged earlier]
    by_cases same : tableId = previous.tableId
    · subst same
      have alsoCurrent : kv.tableMaps.current.get? previous.tableId = some previous := named.symm ▸ isCurrent
      exact .opens (TableMaps.replace_opens (sound _) alsoCurrent _) rfl rfl
    · exact .same (kv.tableMaps.replace_other _ same)

/-! ## Removal -/

/-- A removal batch takes whole tables and leaves the other ones alone. -/
structure PurgesTables (kv : CatalogKv) (batch : KvBatch) : Prop where
  unwritten : batch.tableObject.writes = [] ∧ batch.tableVisibility.writes = [] ∧ batch.currentTableRow.writes = []
  whole : ∀ tableId, kv.tableMaps.SameTable (kv.commit batch).tableMaps tableId ∨
    (kv.commit batch).tableMaps.NoVersions tableId

section

variable {kv : CatalogKv} {batch : KvBatch} {through : CatalogOrderId}

theorem PurgesTables.untouched (same : batch.tables = ({} : KvBatch).tables) : PurgesTables kv batch := by
  have unchanged := kv.commit_tableMaps_congr same
  refine ⟨?_, fun tableId => Or.inl (unchanged ▸ .refl kv.tableMaps tableId)⟩
  simp only [KvBatch.tables, Prod.mk.injEq] at same
  rw [same.1, same.2.1, same.2.2]
  exact ⟨rfl, rfl, rfl⟩

theorem PurgesTables.purge (purges : PurgesTables kv batch)
    (sound : ∀ tableId, kv.tableMaps.SoundFor through tableId) (tableId : TableId) (snapshots : List SnapshotRow) :
    PurgesTables kv (stageRemoveUnreachableTableMetadata kv batch tableId snapshots) := by
  unfold stageRemoveUnreachableTableMetadata
  extract_lets stored tableRows
  split
  · exact purges
  · obtain ⟨noObjects, noVisibility, noCurrent⟩ := purges.unwritten
    have storedIff (key : TableObjectKey) : key ∈ stored.map Prod.fst ↔
        key.tableId = tableId ∧ (kv.tableObject.get? key).isSome := by
      rw [List.mem_map]
      constructor
      · rintro ⟨entry, member, rfl⟩
        obtain ⟨found, ofTable⟩ := OrderedMap.mem_scan.mp member
        exact ⟨of_decide_eq_true ofTable, Option.isSome_iff_exists.mpr ⟨_, found⟩⟩
      · rintro ⟨ofTable, found⟩
        obtain ⟨row, found⟩ := Option.isSome_iff_exists.mp found
        exact ⟨(key, row), OrderedMap.mem_scan.mpr ⟨found, decide_eq_true ofTable⟩, rfl⟩
    have indexedIff (key : TableVisibilityKey) :
        key ∈ tableRows.map (fun row => (⟨row.validity.beginOrder, row.tableId⟩ : TableVisibilityKey)) ↔
          key.tableId = tableId ∧ (kv.tableVisibility.get? key).isSome := by
      rw [List.mem_map]
      constructor
      · rintro ⟨row, member, rfl⟩
        obtain ⟨⟨objectKey, source⟩, entry, rfl⟩ := List.mem_map.mp member
        obtain ⟨found, ofTable⟩ := OrderedMap.mem_scan.mp entry
        have ofTable : objectKey.tableId = tableId := of_decide_eq_true ofTable
        have named := ((sound objectKey.tableId).named found).1
        have indexed := (sound objectKey.tableId).visible objectKey.order
        refine ⟨named.trans ofTable, ?_⟩
        dsimp only
        rw [named]
        exact Option.isSome_iff_exists.mpr ⟨source, indexed.trans found⟩
      · rintro ⟨ofTable, found⟩
        obtain ⟨row, indexed⟩ := Option.isSome_iff_exists.mp found
        have found : kv.tableMaps.objects.get? ⟨key.tableId, key.beginOrder⟩ = some row :=
          ((sound key.tableId).visible key.beginOrder).symm.trans indexed
        have named := ((sound key.tableId).named found).1
        refine ⟨_, List.mem_map.mpr ⟨(⟨key.tableId, key.beginOrder⟩, row),
          OrderedMap.mem_scan.mpr ⟨found, decide_eq_true ofTable⟩, rfl⟩, ?_⟩
        dsimp only
        rw [named]
    refine ⟨?_, ?_⟩
    · simp only [Staged.deleteAll_writes, Staged.delete]
      exact ⟨noObjects, noVisibility, noCurrent⟩
    · intro query
      by_cases same : query = tableId
      · subst same
        refine Or.inr ⟨?_, ?_, ?_⟩
        · intro begun
          by_cases found : (⟨query, begun⟩ : TableObjectKey) ∈ stored.map Prod.fst
          · exact OrderedMap.get?_commit_deleteAll_of_mem _ _ found (Staged.silent noObjects _)
          · refine (OrderedMap.get?_commit_deleteAll_of_not_mem _ _ found).trans ?_
            refine OrderedMap.get?_commit_of_none _ _ ?_ (Staged.silent noObjects _)
            rw [storedIff] at found
            simpa using found
        · intro begun
          by_cases found : (⟨begun, query⟩ : TableVisibilityKey) ∈ tableRows.map
              (fun row => (⟨row.validity.beginOrder, row.tableId⟩ : TableVisibilityKey))
          · exact OrderedMap.get?_commit_deleteAll_of_mem _ _ found (Staged.silent noVisibility _)
          · refine (OrderedMap.get?_commit_deleteAll_of_not_mem _ _ found).trans ?_
            refine OrderedMap.get?_commit_of_none _ _ ?_ (Staged.silent noVisibility _)
            rw [indexedIff] at found
            simpa using found
        · exact OrderedMap.get?_commit_delete_self _ _ _ (Staged.silent noCurrent _)
      · have kept : (kv.commit batch).tableMaps.SameTable (kv.commit { batch with
            tableVisibility := batch.tableVisibility.deleteAll
              (tableRows.map fun row => ⟨row.validity.beginOrder, row.tableId⟩)
            currentTableRow := batch.currentTableRow.delete tableId
            tableObject := batch.tableObject.deleteAll (stored.map Prod.fst) }).tableMaps query := by
          refine ⟨?_, ?_, OrderedMap.get?_commit_delete _ _ _ _ (Or.inl same)⟩
          · intro begun
            refine OrderedMap.get?_commit_deleteAll_of_not_mem _ _ ?_
            rw [storedIff]
            exact fun found => same found.1
          · intro begun
            refine OrderedMap.get?_commit_deleteAll_of_not_mem _ _ ?_
            rw [indexedIff]
            exact fun found => same found.1
        exact (purges.whole query).imp (fun earlier => earlier.trans kept) (fun missing => missing.same kept)

theorem PurgesTables.purgeAll (purges : PurgesTables kv batch)
    (sound : ∀ tableId, kv.tableMaps.SoundFor through tableId) (tableIds : List TableId) (snapshots : List SnapshotRow) :
    PurgesTables kv (stageRemoveUnreachableTables kv batch tableIds snapshots) := by
  unfold stageRemoveUnreachableTables
  generalize tableIds.dedup.insertionSort (· ≤ ·) = ordered
  induction ordered generalizing batch with
  | nil => exact purges
  | cons tableId rest ih => exact ih (purges.purge sound tableId snapshots)

theorem CatalogOperation.Maintains.tables (maintains : operation.Maintains kv batch)
    (sound : ∀ tableId, kv.tableMaps.SoundFor through tableId) : PurgesTables kv batch := by
  cases maintains with
  | expireSnapshots staged =>
    obtain ⟨_, rfl⟩ := stageExpiredSnapshots_changes staged
    exact .untouched rfl
  | removeOldDataFiles staged =>
    obtain ⟨rows, _, snapshots, _, rfl, rfl⟩ := stageRemoveOldDataFiles_ok staged
    generalize rows.filter _ = removed
    obtain ⟨_, _, _, _, _, _, _, _, _, _, _, same⟩ := foldl_stageRemoveOldDataFile_changes kv snapshots removed {}
    rw [same]
    refine PurgesTables.purgeAll ?_ sound _ snapshots
    exact .untouched rfl
  | removeOldDeleteFiles staged =>
    obtain ⟨rows, _, snapshots, _, rfl, rfl⟩ := stageRemoveOldDeleteFiles_ok staged
    generalize rows.filter _ = removed
    obtain ⟨_, _, _, _, _, _, same⟩ := foldl_stageRemoveOldDeleteFile_changes kv removed {}
    rw [same]
    refine PurgesTables.purgeAll ?_ sound _ snapshots
    exact .untouched rfl

end

/-! ## Table commits -/

/-- The commits that replace or drop versions of tables. -/
inductive TableOperation where
  | appendColumns (now : Int) (tableId : TableId) (columns : List TableColumnRow)
  | renameTables (now : Int) (renames : List TableRename)
  | renameColumns (now : Int) (renames : List ColumnChange)
  | dropColumns (now : Int) (drops : List ColumnDrop)
  | changeColumnTypes (now : Int) (changes : List ColumnChange)
  | dropTables (now : Int) (tableIds : List TableId) (commitRawSnapshot : Option RawSnapshotSequence)
  deriving DecidableEq, Repr

def TableOperation.apply (kv : CatalogKv) : TableOperation → CatalogKv
  | appendColumns now tableId columns => (commitAppendTableColumns kv now tableId columns).2
  | renameTables now renames => (commitRenameTables kv now renames).2
  | renameColumns now renames => (commitRenameTableColumns kv now renames).2
  | dropColumns now drops => (commitDropTableColumns kv now drops).2
  | changeColumnTypes now changes => (commitChangeTableColumnTypes kv now changes).2
  | dropTables now tableIds commitRawSnapshot => (commitDropTablesAt kv now tableIds commitRawSnapshot).2

/-- The latest snapshot bounds the orders of sound table versions. -/
def TablesSound (kv : CatalogKv) : Prop :=
  ∃ latest, latestSnapshot kv = some latest ∧ latest.order ≤ kv.nextOrder ∧
    ∀ tableId, kv.tableMaps.SoundFor latest.order tableId

theorem stageDropTable_latestSnapshotRow {kv : CatalogKv} {now : Int} {order : CatalogOrderId}
    {next : List DroppedTable × KvBatch} {tableId : TableId}
    (success : stageDropTable kv now order state tableId = .ok next) :
    next.2.latestSnapshotRow = state.2.latestSnapshotRow := by
  unfold stageDropTable at success
  simp only [bind_eq_ok, pure_eq_ok] at success
  obtain ⟨table, _, ⟨dropped, expired⟩, expires, rfl⟩ := success
  exact foldlM_invariant (fun reached : DroppedTable × KvBatch =>
    reached.2.latestSnapshotRow = state.2.latestSnapshotRow) expires rfl
    fun _ _ _ _ soFar taken => (expireDroppedTableFile_tables taken).2.1.trans soFar

/-- Each rename takes a listed table and keeps its id. -/
theorem foldlM_renameTable {currentTables : List TableRow} {all : List TableRename}
    {start finish : List RenamedTable} (success : renames.foldlM (renameTable currentTables all) start = .ok finish) :
    finish.map (fun table => table.previous.tableId) =
        start.map (fun table => table.previous.tableId) ++ renames.map TableRename.tableId ∧
      ∀ table ∈ finish, table ∉ start → table.previous ∈ currentTables ∧ table.renamed.tableId = table.previous.tableId := by
  induction renames generalizing start with
  | nil =>
    obtain rfl : start = finish := by simpa [pure, Except.pure] using success
    exact ⟨by simp, fun table member new => absurd member new⟩
  | cons rename rest ih =>
    rw [List.foldlM_cons, bind_eq_ok] at success
    obtain ⟨middle, taken, success⟩ := success
    obtain ⟨ids, sources⟩ := ih success
    unfold renameTable at taken
    split at taken
    · simp at taken
    · rename_i previous found
      simp only [bind_eq_ok, pure_eq_ok] at taken
      obtain ⟨_, _, rfl⟩ := taken
      have named : previous.tableId = rename.tableId := by simpa using List.find?_some found
      refine ⟨by simpa [named] using ids, ?_⟩
      intro table member new
      by_cases now : table ∈ start ++ [⟨previous, { previous with name := rename.newName }⟩]
      · rcases List.mem_append.mp now with earlier | this
        · exact absurd earlier new
        · rw [List.mem_singleton.mp this]
          exact ⟨List.mem_of_find?_eq_some found, rfl⟩
      · exact sources table member now

namespace TablesSound

variable {kv : CatalogKv} {batch : KvBatch}

theorem start (lastOrder : CatalogOrderId) (now : Int) : TablesSound (CatalogHistory.start lastOrder now).kv := by
  refine ⟨SnapshotRow.new (lastOrder + 1) 0 now, rfl, le_rfl, ?_⟩
  intro tableId
  refine TableMaps.NoVersions.sound ⟨?_, ?_, ?_⟩
  · exact fun _ => rfl
  · exact fun _ => rfl
  · rfl

theorem generated (sound : TablesSound kv) : TablesSound kv.withGeneratedOrder := by
  obtain ⟨latest, isLatest, past, versions⟩ := sound
  exact ⟨latest, isLatest, Nat.le_succ_of_le past, versions⟩

theorem commit (sound : TablesSound kv) (commits : operation.Commits kv batch) :
    TablesSound (kv.withGeneratedOrder.commit batch) := by
  obtain ⟨latest, isLatest, past, versions⟩ := sound
  obtain ⟨snapshot, isSnapshot, order⟩ := commits.latestSnapshot
  refine ⟨snapshot, isSnapshot, order.le, ?_⟩
  intro tableId
  rw [order]
  exact (commits.tableStep isLatest (Nat.lt_succ_of_le past) versions tableId).sound (versions tableId)
    (Nat.lt_succ_of_le past)

theorem maintain (sound : TablesSound kv) (maintains : operation.Maintains kv batch) :
    TablesSound (kv.commit batch) := by
  obtain ⟨latest, isLatest, past, versions⟩ := sound
  refine ⟨latest, maintains.inlineDeletions.2.trans isLatest, past, ?_⟩
  intro tableId
  rcases (maintains.tables versions).whole tableId with same | missing
  · exact (versions tableId).same same
  · exact missing.sound

/-- A commit under a snapshot of its own order. -/
theorem committed {snapshot : SnapshotRow} (rows : batch.latestSnapshotRow = ({} : Staged Unit SnapshotRow).put () snapshot)
    (order : snapshot.order = kv.generatedOrderId)
    (versions : ∀ tableId, (kv.commit batch).tableMaps.SoundFor kv.generatedOrderId tableId) :
    TablesSound (kv.withGeneratedOrder.commit batch) := by
  refine ⟨snapshot, ?_, order.le, ?_⟩
  · have latest : (kv.withGeneratedOrder.commit batch).latestSnapshotRow =
        kv.latestSnapshotRow.commit batch.latestSnapshotRow := rfl
    rw [latestSnapshot, latest, rows, OrderedMap.commit_put, OrderedMap.get?_insert_self]
  · intro tableId
    rw [order]
    exact versions tableId

theorem commitTableReplacements (sound : TablesSound kv) (now : Int) (sequence : RawSnapshotSequence)
    (replaces : ReplacesCurrent kv replacements) :
    TablesSound (DucklakeCatalog.commitTableReplacements kv now sequence replacements).2 := by
  obtain ⟨latest, isLatest, past, versions⟩ := sound
  unfold DucklakeCatalog.commitTableReplacements
  split
  · exact ⟨latest, isLatest, past, versions⟩
  · have versionsAfter := stageTableReplacements_sound replaces versions (Nat.lt_succ_of_le past)
      (rfl : stageTableReplacements kv now sequence replacements kv.generatedOrderId = .ok ((), _))
    refine @committed kv _ (SnapshotRow.new kv.generatedOrderId (sequence + 1) now) ?_ rfl versionsAfter
    refine foldl_view KvBatch.latestSnapshotRow ?_ _ _
    intro batch replacement
    rfl

theorem commitPrepared {α : Type} (sound : TablesSound kv) (now : Int) {prepared : CatalogResult (PreparedReplacements α)}
    (replaces : ∀ accepted, prepared = .ok accepted → ReplacesCurrent kv accepted.replacements) :
    TablesSound (DucklakeCatalog.commitPrepared kv now prepared).2 := by
  cases prepared with
  | error failure => exact sound
  | ok accepted => exact sound.commitTableReplacements now accepted.previousSequence (replaces accepted rfl)

theorem replacesOne (sound : TablesSound kv) {tableId : TableId} {next : TableRow}
    (loads : loadCurrentTableRow kv tableId = .ok previous) (named : next.tableId = previous.tableId) :
    ReplacesCurrent kv [⟨tableId, previous, next⟩] := by
  obtain ⟨latest, _, _, versions⟩ := sound
  have isCurrent := loadCurrentTableRow_ok loads
  have sameTable := ((versions tableId).named ((versions tableId).current.mp isCurrent).1).1
  refine ⟨List.nodup_singleton _, ?_, ?_⟩
  · intro replacement member
    rw [List.mem_singleton.mp member]
    exact isCurrent
  · intro replacement member
    rw [List.mem_singleton.mp member]
    exact named.trans sameTable

/-- The rows listed at the latest snapshot are the current ones. -/
theorem current_of_listed (sound : TablesSound kv) (loads : loadLatestSnapshot kv = .ok latest)
    (listed : row ∈ listTablesAt kv latest.order) : kv.currentTableRow.get? row.tableId = some row := by
  obtain ⟨snapshot, isLatest, _, versions⟩ := sound
  obtain rfl : snapshot = latest := by
    rw [loadLatestSnapshot, isLatest] at loads
    simpa using loads
  have agree := tableListingsAgree_of_sound snapshot isLatest versions
  rw [(agree.1 snapshot.order).2.2, ← agree.2 snapshot isLatest] at listed
  obtain ⟨⟨tableId, stored⟩, entry, rfl⟩ := List.mem_map.mp ((List.mem_insertionSort _).mp listed)
  have isCurrent := (OrderedMap.get?_eq_some_iff _).mpr entry
  have named := ((versions tableId).named ((versions tableId).current.mp isCurrent).1).1
  dsimp only
  rw [named]
  exact isCurrent

theorem appendTableColumns_replaces (sound : TablesSound kv) {tableId : TableId} {columns : List TableColumnRow}
    {accepted : PreparedReplacements Unit} (prepares : prepareAppendTableColumns kv tableId columns = .ok accepted) :
    ReplacesCurrent kv accepted.replacements := by
  unfold prepareAppendTableColumns at prepares
  simp only [bind_eq_ok, pure_eq_ok] at prepares
  obtain ⟨latest, _, previous, loads, _, _, rfl⟩ := prepares
  exact sound.replacesOne loads rfl

theorem columnVersion_replaces {α : Type} (sound : TablesSound kv) {shape : CatalogResult TableId}
    {change : TableId → List TableColumnRow → CatalogResult (List TableColumnRow × α)}
    {accepted : PreparedReplacements α} (prepares : prepareColumnVersion kv shape change = .ok accepted) :
    ReplacesCurrent kv accepted.replacements := by
  unfold prepareColumnVersion at prepares
  simp only [bind_eq_ok, pure_eq_ok] at prepares
  obtain ⟨tableId, _, latest, _, previous, loads, ⟨nextColumns, result⟩, _, rfl⟩ := prepares
  exact sound.replacesOne loads rfl

theorem renameTables_replaces (sound : TablesSound kv)
    {accepted : PreparedReplacements (List RenamedTable)} (prepares : prepareRenameTables kv renames = .ok accepted) :
    ReplacesCurrent kv accepted.replacements := by
  unfold prepareRenameTables at prepares
  simp only [bind_eq_ok, pure_eq_ok] at prepares
  obtain ⟨_, distinct, latest, loads, renamed, folds, rfl⟩ := prepares
  obtain ⟨ids, sources⟩ := foldlM_renameTable folds
  have sameIds : (renamed.map fun table => (⟨table.previous.tableId, table.previous, table.renamed⟩ :
      TableVersionReplacement)).map TableVersionReplacement.tableId = renames.map TableRename.tableId := by
    rw [List.map_map]
    have plain : renamed.map (fun table => table.previous.tableId) = renames.map TableRename.tableId := by
      simpa using ids
    exact plain
  refine ⟨?_, ?_, ?_⟩
  · rw [sameIds]
    exact rejectRepeatedIds_nodup distinct
  · intro replacement member
    obtain ⟨table, listed, rfl⟩ := List.mem_map.mp member
    exact sound.current_of_listed loads (sources table listed (by simp)).1
  · intro replacement member
    obtain ⟨table, listed, rfl⟩ := List.mem_map.mp member
    exact (sources table listed (by simp)).2

theorem dropTables (sound : TablesSound kv) (now : Int) (tableIds : List TableId)
    (commitRawSnapshot : Option RawSnapshotSequence) :
    TablesSound (commitDropTablesAt kv now tableIds commitRawSnapshot).2 := by
  unfold commitDropTablesAt
  split
  · exact sound
  · split
    · exact sound
    · rename_i sequence prepares
      rcases commitWith_cases kv (stageDropTables kv now tableIds sequence) with ⟨_, same⟩ | ⟨dropped, batch, staged, same⟩
      · rw [same]
        exact sound.generated
      · rw [same]
        unfold prepareDropTables at prepares
        simp only [bind_eq_ok] at prepares
        obtain ⟨_, distinct, _⟩ := prepares
        obtain ⟨latest, isLatest, past, versions⟩ := sound
        refine @committed kv _ (SnapshotRow.new kv.generatedOrderId sequence now) ?_ rfl
          (stageDropTables_sound (rejectRepeatedIds_nodup distinct) versions (Nat.lt_succ_of_le past) staged)
        refine foldlM_invariant (fun state : List DroppedTable × KvBatch => state.2.latestSnapshotRow =
          ({} : Staged Unit SnapshotRow).put () (SnapshotRow.new kv.generatedOrderId sequence now)) staged rfl ?_
        intro state tableId next _ soFar taken
        exact (stageDropTable_latestSnapshotRow taken).trans soFar

theorem apply (sound : TablesSound kv) (operation : TableOperation) : TablesSound (operation.apply kv) := by
  cases operation with
  | appendColumns now tableId columns =>
    simp only [TableOperation.apply, commitAppendTableColumns]
    split
    · exact sound
    · have committed := sound.commitPrepared now fun accepted prepares =>
        @appendTableColumns_replaces kv sound tableId columns accepted prepares
      split
      · rename_i failed
        rw [failed] at committed
        exact committed
      · rename_i succeeded
        rw [succeeded] at committed
        exact committed
  | renameTables now renames =>
    simp only [TableOperation.apply, commitRenameTables]
    split
    · exact sound
    · exact sound.commitPrepared now fun accepted prepares => sound.renameTables_replaces prepares
  | renameColumns now renames =>
    simp only [TableOperation.apply, commitRenameTableColumns]
    split
    · exact sound
    · exact sound.commitPrepared now fun accepted prepares => sound.columnVersion_replaces prepares
  | dropColumns now drops =>
    simp only [TableOperation.apply, commitDropTableColumns]
    split
    · exact sound
    · exact sound.commitPrepared now fun accepted prepares => sound.columnVersion_replaces prepares
  | changeColumnTypes now changes =>
    simp only [TableOperation.apply, commitChangeTableColumnTypes]
    split
    · exact sound
    · exact sound.commitPrepared now fun accepted prepares => sound.columnVersion_replaces prepares
  | dropTables now tableIds commitRawSnapshot => exact sound.dropTables now tableIds commitRawSnapshot

end TablesSound

/-! ## Runs -/

def CatalogHistory.afterTable (history : CatalogHistory) (operation : TableOperation) : CatalogHistory :=
  { history with kv := operation.apply history.kv }

/-- Histories of any catalog operations and table commits. -/
inductive CatalogHistory.TableReachable : CatalogHistory → Prop
  | start (lastOrder : CatalogOrderId) (now : Int) : TableReachable (CatalogHistory.start lastOrder now)
  | operation (earlier : TableReachable history) (operation : CatalogOperation) :
      TableReachable (history.after operation)
  | tableOperation (earlier : TableReachable history) (operation : TableOperation) :
      TableReachable (history.afterTable operation)

theorem CatalogHistory.TableReachable.sound (reachable : CatalogHistory.TableReachable history) :
    TablesSound history.kv := by
  induction reachable with
  | start lastOrder now => exact .start lastOrder now
  | operation _ operation ih =>
    exact CatalogHistory.after_invariant (fun history => TablesSound history.kv) ih ih.generated
      (fun _ commits => ih.commit commits) (fun _ maintains => ih.maintain maintains)
  | tableOperation _ operation ih => exact ih.apply operation

/-- In every reachable state the listings agree at every order, and so does each single load. -/
theorem reachable_tableListingsAgree (reachable : CatalogHistory.TableReachable history) :
    TableListingsAgree history.kv := by
  have sound : TablesSound history.kv := by
    induction reachable with
    | start lastOrder now => exact .start lastOrder now
    | operation _ operation ih =>
      exact CatalogHistory.after_invariant (fun history => TablesSound history.kv) ih ih.generated
        (fun _ commits => ih.commit commits) (fun _ maintains => ih.maintain maintains)
    | tableOperation _ operation ih => exact ih.apply operation
  obtain ⟨latest, isLatest, _, versions⟩ := sound
  exact tableListingsAgree_of_sound latest isLatest versions

/-- A table that gains a column, is renamed and then dropped, next to one that stays. -/
def alteredThenDropped : CatalogHistory :=
  (((((CatalogHistory.start 0 0).after
    (.createTable 0 { tableId := 1, name := "a", validity := ⟨autoOrder, none⟩ })).after
    (.createTable 0 { tableId := 2, name := "b", validity := ⟨autoOrder, none⟩ })).afterTable
    (.appendColumns 0 1 [⟨1, "c", "INTEGER", true, none, none, none, none, "", false⟩])).afterTable
    (.renameTables 0 [⟨1, "d"⟩])).afterTable
    (.dropTables 0 [1] none)

theorem alteredThenDropped_reachable : CatalogHistory.TableReachable alteredThenDropped :=
  .tableOperation (.tableOperation (.tableOperation (.operation (.operation (.start 0 0) _) _) _) _) _

theorem reachable_tableListingsAgree_alteredThenDropped :
    TableListingsAgree alteredThenDropped.kv ∧
      (listTablesAt alteredThenDropped.kv 5).map TableRow.name = ["d", "b"] ∧
      (listTablesAt alteredThenDropped.kv 6).map TableRow.name = ["b"] :=
  ⟨reachable_tableListingsAgree alteredThenDropped_reachable, by decide +kernel, by decide +kernel⟩

end DucklakeCatalog
