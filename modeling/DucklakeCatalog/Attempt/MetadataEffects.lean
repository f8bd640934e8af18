import DucklakeCatalog.Attempt.SchemaForest
import DucklakeCatalog.Attempt.ViewChanges
import DucklakeCatalog.Fdb.TableFits

/-! What the transaction of a metadata commit leaves of schemas, views and current tables. -/
namespace DucklakeCatalog.Fdb

open KeyedStore

/-! ## Versions of schemas -/

/-- Every version is stored under the id of its row. -/
def VersionsKeyed {V : Type} (idOf : V → Nat) (versions : Versions V) : Prop :=
  ∀ {id order row}, versions.get? (toLex (id, order)) = some row → idOf row = id

theorem VersionsKeyed.storeVersions {V : Type} {idOf : V → Nat} {versions : Versions V} (keyed : VersionsKeyed idOf versions)
    {writes : List ((Nat ×ₗ Nat) × V)} (written : ∀ {id order row}, (toLex (id, order), row) ∈ writes → idOf row = id) :
    VersionsKeyed idOf (storeVersions versions writes) := by
  intro id order row found
  rcases VersionsWithin.storeVersions_cases versions writes (toLex (id, order)) with ⟨stored, member, isStored⟩ | ⟨_, kept⟩
  · obtain rfl := Option.some.inj (isStored.symm.trans found)
    exact written member
  · exact keyed (kept.symm.trans found)

theorem schemaRow_shows (through order : CatalogOrderId) (row : SchemaRow) :
    (row.beginning order).validity.isVisibleAt through = true ↔
      order ≤ through ∧ ∀ endOrder, row.endOrder = some endOrder → through < endOrder :=
  ValidityWindow.isVisibleAt_iff

theorem viewRow_shows (through order : CatalogOrderId) (row : ViewRow) :
    (row.beginning order).validity.isVisibleAt through = true ↔
      order ≤ through ∧ ∀ endOrder, row.endOrder = some endOrder → through < endOrder :=
  ValidityWindow.isVisibleAt_iff

section Schemas

variable {store : FdbStore} {through : CatalogOrderId}

section

variable (within : VersionsWithin SchemaRow.endOrder store.schemaObject through)

include within

theorem mem_listSchemasAt {schema : SchemaRow} :
    schema ∈ listSchemasAt store through ↔ ∃ id order row, store.schemaObject.get? (toLex (id, order)) = some row ∧
      row.endOrder = none ∧ row.beginning order = schema := by
  change schema ∈ listVersions store.schemaObject SchemaRow.beginning (fun row => row.validity.isVisibleAt through) ↔ _
  exact mem_listVersions within (schemaRow_shows through)

theorem loadSchemaAt_open {schemaId : SchemaId}
    {schema : SchemaRow} (loads : loadSchemaAt store schemaId through = some schema) :
    ∃ order row, store.schemaObject.get? (toLex (schemaId, order)) = some row ∧ row.endOrder = none ∧
      row.beginning order = schema :=
  loadVersion_open within (schemaRow_shows through) loads

theorem listSchemasAt_oneRowEach
    (keyed : VersionsKeyed SchemaRow.schemaId store.schemaObject) : OneRowEach (listSchemasAt store through) := by
  intro left leftMember right rightMember same
  obtain ⟨id, order, row, found, isOpen, rfl⟩ := (mem_listSchemasAt within).mp leftMember
  obtain ⟨otherId, later, other, otherFound, otherOpen, rfl⟩ := (mem_listSchemasAt within).mp rightMember
  have leftId : row.schemaId = id := keyed found
  have rightId : other.schemaId = otherId := keyed otherFound
  obtain rfl : id = otherId := leftId.symm.trans (same.trans rightId)
  have sameOrder : order = later :=
    Nat.le_antisymm (within.newest otherFound otherOpen found) (within.newest found isOpen otherFound)
  subst sameOrder
  rw [Option.some.inj (found.symm.trans otherFound)]

end

/-- The writes of accepted schema changes, prepared on the state they are stored in. -/
structure SchemaChanges (store : FdbStore) (through : CatalogOrderId) (created dropped : List SchemaRow)
    (droppedIds : List SchemaId) : Prop where
  loaded : ∀ schema ∈ dropped, ∃ schemaId ∈ droppedIds, loadSchemaAt store schemaId through = some schema
  all : ∀ schemaId ∈ droppedIds, ∃ schema ∈ dropped, loadSchemaAt store schemaId through = some schema
  fresh : ∀ schema ∈ created, schema.schemaId ∈ (listSchemasAt store through).map SchemaRow.schemaId →
    schema.schemaId ∈ droppedIds

theorem mem_schemaWrites {order begun : CatalogOrderId} {created dropped : List SchemaRow} {id : SchemaId} {row : SchemaRow} :
    (toLex (id, begun), row) ∈ schemaWrites order created dropped ↔
      (∃ schema ∈ dropped, schema.schemaId = id ∧ schema.validity.beginOrder = begun ∧
        { schema with validity := { schema.validity with endOrder := some order } } = row) ∨
      ∃ schema ∈ created, schema.schemaId = id ∧ order = begun ∧ { schema with validity := ⟨autoOrder, none⟩ } = row := by
  simp only [schemaWrites, List.mem_append, List.mem_map, Prod.mk.injEq, EmbeddingLike.apply_eq_iff_eq, and_assoc]

namespace SchemaChanges

variable {created dropped : List SchemaRow} {droppedIds : List SchemaId} {order : CatalogOrderId}

theorem fit (changes : SchemaChanges store through created dropped droppedIds)
    (within : VersionsWithin SchemaRow.endOrder store.schemaObject through)
    (keyed : VersionsKeyed SchemaRow.schemaId store.schemaObject) (later : through < order) :
    WritesFit SchemaRow.endOrder store.schemaObject through order (schemaWrites order created dropped) where
  later := later
  kinds := by
    intro id begun row member
    rcases mem_schemaWrites.mp member with ⟨schema, isDropped, rfl, rfl, rfl⟩ | ⟨schema, _, rfl, rfl, rfl⟩
    · obtain ⟨schemaId, _, loads⟩ := changes.loaded schema isDropped
      obtain ⟨opened, stored, found, isOpen, rfl⟩ := loadSchemaAt_open within loads
      have sameId : stored.schemaId = schemaId := keyed found
      refine Or.inl ⟨rfl, (within.past found).1, ?_⟩
      intro other openRow otherFound otherOpen
      have otherFound : store.schemaObject.get? (toLex (schemaId, other)) = some openRow := sameId ▸ otherFound
      exact Nat.le_antisymm (within.newest found isOpen otherFound) (within.newest otherFound otherOpen found)
    · exact Or.inr ⟨rfl, rfl⟩
  ended := by
    intro id row member stored openRow found isOpen
    have listed : openRow.beginning stored ∈ listSchemasAt store through :=
      (mem_listSchemasAt within).mpr ⟨id, stored, openRow, found, isOpen, rfl⟩
    have sameId : openRow.schemaId = id := keyed found
    have isDropped : id ∈ droppedIds := by
      rcases mem_schemaWrites.mp member with ⟨schema, isDropped, rfl, _, _⟩ | ⟨schema, isCreated, rfl, _, _⟩
      · obtain ⟨schemaId, inside, loads⟩ := changes.loaded schema isDropped
        obtain ⟨_, loaded, loadedFound, _, rfl⟩ := loadSchemaAt_open within loads
        exact (keyed loadedFound).symm ▸ inside
      · exact changes.fresh schema isCreated (List.mem_map.mpr ⟨_, listed, sameId⟩)
    obtain ⟨schema, inside, loads⟩ := changes.all id isDropped
    obtain ⟨opened, loaded, loadedFound, loadedOpen, rfl⟩ := loadSchemaAt_open within loads
    have loadedId : loaded.schemaId = id := keyed loadedFound
    have sameOrder : opened = stored :=
      Nat.le_antisymm (within.newest found isOpen loadedFound) (within.newest loadedFound loadedOpen found)
    exact ⟨_, mem_schemaWrites.mpr (Or.inl ⟨_, inside, loadedId, sameOrder, rfl⟩)⟩

/-- What was listed stays listed unless it is dropped, and what was created is listed. -/
theorem places_after (changes : SchemaChanges store through created dropped droppedIds)
    (within : VersionsWithin SchemaRow.endOrder store.schemaObject through)
    (keyed : VersionsKeyed SchemaRow.schemaId store.schemaObject) (later : through < order)
    (oneRow : OneRowEach (leftSchemas (listSchemasAt store through) created droppedIds)) {next : FdbStore}
    (stored : next.schemaObject = storeVersions store.schemaObject (schemaWrites order created dropped)) :
    schemaPlaces (listSchemasAt next order) =
      schemaPlaces (leftSchemas (listSchemasAt store through) created droppedIds) := by
  have fit := changes.fit within keyed later
  have nextWithin : VersionsWithin SchemaRow.endOrder next.schemaObject order := stored ▸ within.after_writes fit
  apply Set.ext
  intro place
  constructor
  · rintro ⟨schema, listed, rfl⟩
    obtain ⟨id, begun, row, found, isOpen, rfl⟩ := (mem_listSchemasAt nextWithin).mp listed
    have opened : Opened SchemaRow.endOrder (storeVersions store.schemaObject (schemaWrites order created dropped)) id row :=
      stored ▸ ⟨begun, found, isOpen⟩
    rcases VersionsWithin.opened_storeVersions fit opened with ⟨_, member⟩ | ⟨⟨before, earlier, wasOpen⟩, unwritten⟩
    · rcases mem_schemaWrites.mp member with ⟨schema, isDropped, rfl, _, rfl⟩ | ⟨schema, isCreated, rfl, _, rfl⟩
      · cases isOpen
      · exact ⟨schema, List.mem_append_right _ isCreated, rfl⟩
    · have wasListed : row.beginning before ∈ listSchemasAt store through :=
        (mem_listSchemasAt within).mpr ⟨id, before, row, earlier, wasOpen, rfl⟩
      refine ⟨row.beginning before, List.mem_append_left _ (mem_keptSchemas.mpr ⟨wasListed, ?_⟩), rfl⟩
      intro isDropped
      obtain ⟨schema, inside, loads⟩ := changes.all _ isDropped
      obtain ⟨order', loaded, loadedFound, _, rfl⟩ := loadSchemaAt_open within loads
      have wasId : row.schemaId = id := keyed earlier
      have sameId : loaded.schemaId = id := (keyed loadedFound).trans wasId
      exact unwritten _ _ (mem_schemaWrites.mpr (Or.inl ⟨_, inside, sameId, rfl, rfl⟩))
  · rintro ⟨schema, member, rfl⟩
    rcases List.mem_append.mp member with kept | isCreated
    · obtain ⟨listed, stays⟩ := mem_keptSchemas.mp kept
      obtain ⟨id, begun, row, found, isOpen, rfl⟩ := (mem_listSchemasAt within).mp listed
      have sameId : row.schemaId = id := keyed found
      have opened := VersionsWithin.opened_kept (schemaWrites order created dropped) ⟨begun, found, isOpen⟩ (by
        intro other closed written
        rcases mem_schemaWrites.mp written with ⟨schema, isDropped, same, _, _⟩ | ⟨schema, isCreated, same, _, _⟩
        · obtain ⟨schemaId, inside, loads⟩ := changes.loaded schema isDropped
          obtain ⟨_, loaded, loadedFound, _, rfl⟩ := loadSchemaAt_open within loads
          have here : schemaId = id := (keyed loadedFound).symm.trans same
          exact stays (sameId.trans here.symm ▸ inside)
        · have known := changes.fresh schema isCreated (List.mem_map.mpr ⟨_, listed, sameId.trans same.symm⟩)
          exact stays (sameId.trans same.symm ▸ known))
      obtain ⟨now, nowFound, nowOpen⟩ := opened
      exact ⟨row.beginning now, (mem_listSchemasAt nextWithin).mpr ⟨id, now, row, stored ▸ nowFound, nowOpen, rfl⟩, rfl⟩
    · have written : (toLex (schema.schemaId, order), { schema with validity := ⟨autoOrder, none⟩ }) ∈
          schemaWrites order created dropped := mem_schemaWrites.mpr (Or.inr ⟨schema, isCreated, rfl, rfl, rfl⟩)
      obtain ⟨row, listed, now, nowFound, nowOpen⟩ := VersionsWithin.opened_written fit written
      rcases mem_schemaWrites.mp listed with ⟨other, _, _, _, rfl⟩ | ⟨other, otherCreated, same, _, rfl⟩
      · cases nowOpen
      · have isSame := oneRow other (List.mem_append_right _ otherCreated) schema member same
        subst isSame
        exact ⟨_, (mem_listSchemasAt nextWithin).mpr ⟨_, now, _, stored ▸ nowFound, nowOpen, rfl⟩, rfl⟩

end SchemaChanges

end Schemas

/-! ## Versions of views -/

section Views

variable {store : MetadataStore} {through order : CatalogOrderId} {createdViews : List ViewRow} {droppedIds : List ViewId}
  {prepared : PreparedViewChanges}

theorem mem_listViewsAt (within : VersionsWithin ViewRow.endOrder store.viewObject through) {view : ViewRow} :
    view ∈ listViewsAt store through ↔ ∃ id order row, store.viewObject.get? (toLex (id, order)) = some row ∧
      row.endOrder = none ∧ row.beginning order = view :=
  mem_listVersions within (viewRow_shows through)

theorem mem_viewWrites {begun : CatalogOrderId} {id : ViewId} {row : ViewRow} :
    (toLex (id, begun), row) ∈ viewWrites order prepared ↔
      (∃ previous next, prepared.replacements.get? id = some (previous, next) ∧ previous.validity.beginOrder = begun ∧
        { previous with validity := { previous.validity with endOrder := some order } } = row) ∨
      (∃ previous next, prepared.replacements.get? id = some (previous, some next) ∧ order = begun ∧
        { next with validity := ⟨autoOrder, none⟩ } = row) ∨
      ∃ view ∈ prepared.createdViews, view.viewId = id ∧ order = begun ∧ { view with validity := ⟨autoOrder, none⟩ } = row := by
  simp only [viewWrites, List.mem_append, List.mem_flatMap, Prod.exists, ← OrderedMap.get?_eq_some_iff,
    viewReplacementWrites, List.mem_cons, List.mem_map, Option.mem_toList, Prod.mk.injEq, EmbeddingLike.apply_eq_iff_eq]
  constructor
  · rintro (⟨viewId, previous, next, found, ⟨⟨rfl, rfl⟩, rfl⟩ | ⟨successor, isNext, ⟨rfl, rfl⟩, rfl⟩⟩ |
      ⟨view, member, ⟨rfl, rfl⟩, rfl⟩)
    · exact Or.inl ⟨previous, next, found, rfl, rfl⟩
    · exact Or.inr (Or.inl ⟨previous, successor, isNext ▸ found, rfl, rfl⟩)
    · exact Or.inr (Or.inr ⟨view, member, rfl, rfl, rfl⟩)
  · rintro (⟨previous, next, found, rfl, rfl⟩ | ⟨previous, next, found, rfl, rfl⟩ | ⟨view, member, rfl, rfl, rfl⟩)
    · exact Or.inl ⟨id, previous, next, found, Or.inl ⟨⟨rfl, rfl⟩, rfl⟩⟩
    · exact Or.inl ⟨id, previous, some next, found, Or.inr ⟨next, rfl, ⟨rfl, rfl⟩, rfl⟩⟩
    · exact Or.inr ⟨view, member, ⟨rfl, rfl⟩, rfl⟩

namespace PreparedViews

section

variable (views : PreparedViews (listViewsAt store through) createdViews droppedIds prepared)

include views

/-- The version a replacement ends is the open one of its id. -/
theorem ends_open
    (within : VersionsWithin ViewRow.endOrder store.viewObject through)
    (keyed : VersionsKeyed ViewRow.viewId store.viewObject) {id : ViewId} {previous : ViewRow} {next : Option ViewRow}
    (found : prepared.replacements.get? id = some (previous, next)) :
    previous.validity.beginOrder ≤ through ∧ ∀ {stored openRow}, store.viewObject.get? (toLex (id, stored)) = some openRow →
      openRow.endOrder = none → stored = previous.validity.beginOrder := by
  obtain ⟨listed, isId⟩ := views.sound.current found
  obtain ⟨viewId, begun, row, isStored, isOpen, rfl⟩ := (mem_listViewsAt within).mp listed
  have rowId : row.viewId = viewId := keyed isStored
  obtain rfl : viewId = id := rowId.symm.trans isId
  refine ⟨(within.past isStored).1, ?_⟩
  intro stored openRow otherFound otherOpen
  exact Nat.le_antisymm (within.newest isStored isOpen otherFound) (within.newest otherFound otherOpen isStored)

theorem fit
    (within : VersionsWithin ViewRow.endOrder store.viewObject through)
    (keyed : VersionsKeyed ViewRow.viewId store.viewObject) (later : through < order) :
    WritesFit ViewRow.endOrder store.viewObject through order (viewWrites order prepared) where
  later := later
  kinds := by
    intro id begun row member
    rcases mem_viewWrites.mp member with ⟨previous, next, found, rfl, rfl⟩ | ⟨_, _, _, rfl, rfl⟩ | ⟨_, _, _, rfl, rfl⟩
    · obtain ⟨before, only⟩ := views.ends_open within keyed found
      exact Or.inl ⟨rfl, before, only⟩
    · exact Or.inr ⟨rfl, rfl⟩
    · exact Or.inr ⟨rfl, rfl⟩
  ended := by
    intro id row member stored openRow isStored isOpen
    have replaced : ∃ previous next, prepared.replacements.get? id = some (previous, next) := by
      rcases mem_viewWrites.mp member with ⟨previous, next, found, _, _⟩ | ⟨previous, next, found, _, _⟩ |
        ⟨view, isCreated, rfl, _, _⟩
      · exact ⟨previous, next, found⟩
      · exact ⟨previous, some next, found⟩
      · have listed := (mem_listViewsAt within).mpr ⟨_, stored, openRow, isStored, isOpen, rfl⟩
        have rowId : openRow.viewId = view.viewId := keyed isStored
        have isDropped := (views.created view isCreated).2.mpr (List.mem_map.mpr ⟨_, listed, rowId⟩)
        obtain ⟨previous, found⟩ := views.ends view.viewId isDropped
        exact ⟨previous, none, found⟩
    obtain ⟨previous, next, found⟩ := replaced
    have same := (views.ends_open within keyed found).2 isStored isOpen
    exact ⟨_, mem_viewWrites.mpr (Or.inl ⟨previous, next, found, same.symm, rfl⟩)⟩

/-- Each view that is current afterwards is a created one that remains or continues one that was not dropped. -/
theorem listed_after
    (within : VersionsWithin ViewRow.endOrder store.viewObject through)
    (keyed : VersionsKeyed ViewRow.viewId store.viewObject) (later : through < order) {next : MetadataStore}
    (stored : next.viewObject = storeVersions store.viewObject (viewWrites order prepared)) {view : ViewRow}
    (listed : view ∈ listViewsAt next order) :
    (ListsView createdViews view ∧
      (view.viewId ∉ droppedIds ∨ view.viewId ∈ (listViewsAt store through).map ViewRow.viewId)) ∨
    (ListsView (listViewsAt store through) view ∧ view.viewId ∉ droppedIds) := by
  have fit := views.fit within keyed later
  have nextWithin : VersionsWithin ViewRow.endOrder next.viewObject order := stored ▸ within.after_writes fit
  obtain ⟨id, begun, row, found, isOpen, rfl⟩ := (mem_listViewsAt nextWithin).mp listed
  have opened : Opened ViewRow.endOrder (storeVersions store.viewObject (viewWrites order prepared)) id row :=
    stored ▸ ⟨begun, found, isOpen⟩
  rcases VersionsWithin.opened_storeVersions fit opened with ⟨_, member⟩ | ⟨⟨before, earlier, wasOpen⟩, unwritten⟩
  · rcases mem_viewWrites.mp member with ⟨_, _, _, _, rfl⟩ | ⟨previous, successor, replaced, _, rfl⟩ |
      ⟨created, isCreated, _, _, rfl⟩
    · cases isOpen
    · obtain ⟨listed, isId⟩ := views.sound.current replaced
      obtain ⟨stays, sameId, sameSchema⟩ := views.sound.keeps replaced
      exact Or.inr ⟨⟨previous, listed, isId.trans sameId.symm, sameSchema.symm⟩, sameId ▸ stays⟩
    · obtain ⟨lists, dropped⟩ := views.created created isCreated
      refine Or.inl ⟨lists, ?_⟩
      by_cases isDropped : created.viewId ∈ droppedIds
      · exact Or.inr (dropped.mp isDropped)
      · exact Or.inl isDropped
  · have wasListed := (mem_listViewsAt within).mpr ⟨id, before, row, earlier, wasOpen, rfl⟩
    refine Or.inr ⟨⟨_, wasListed, rfl, rfl⟩, ?_⟩
    intro isDropped
    obtain ⟨previous, ends⟩ := views.ends _ isDropped
    have rowId : row.viewId = id := keyed earlier
    have ends : prepared.replacements.get? id = some (previous, none) := rowId ▸ ends
    exact unwritten _ _ (mem_viewWrites.mpr (Or.inl ⟨previous, none, ends, rfl, rfl⟩))

end

end PreparedViews

theorem prepareViews_prepared {seen : MetadataStore} {latest : SnapshotRow} {facts : MetadataFacts}
    {prepared : PreparedViewChanges} (prepares : prepareViews seen latest facts = .ok prepared) :
    PreparedViews (listViewsAt seen latest.order) facts.createdViews facts.droppedViewIds prepared := by
  unfold prepareViews at prepares
  split at prepares
  · exact prepareViewChanges_prepared prepares
  · rename_i unchanged
    obtain rfl := Except.ok.inj prepares
    simp only [MetadataFacts.changesViews, ne_eq, decide_eq_true_eq, not_or, not_not] at unchanged
    refine ⟨⟨by simp, by simp⟩, ?_, by simp⟩
    rw [unchanged.2.2.1]
    exact fun viewId isDropped => absurd isDropped List.not_mem_nil

end Views

/-! ## Current tables -/

def MetadataCommit.writes (commit : MetadataCommit) : List TableWrite :=
  commit.replacements.map replacementWrite ++ commit.createdTables.map .create ++ commit.drops.map dropWrite ++
    commit.replacementTables.map .create

theorem stageTables_tableView (order : CatalogOrderId) (commit : MetadataCommit) (store : FdbStore) :
    (stageTables order commit store).tableView = commit.writes.foldl (TableWrite.apply order) store.tableView := by
  unfold stageTables
  dsimp only
  rw [stageMaxTableId_tableView, foldl_tableView (stageCreatedTable_tableView order),
    foldl_tableView (stageDrop_tableView commit.seen order), stageMaxTableId_tableView, stageMaxTableId_tableView,
    foldl_tableView (stageCreatedTable_tableView order), foldl_tableView (stageTableReplacement_tableView order)]
  simp only [MetadataCommit.writes, List.foldl_append]

/-- Where the row of a table comes from after a commit. -/
theorem writes_rows (commit : MetadataCommit) (order : CatalogOrderId) (view : TableView) {tableId : TableId} {row : TableRow}
    (found : (commit.writes.foldl (TableWrite.apply order) view).rows.get? tableId = some row) :
    (∃ table ∈ commit.createdTables ++ commit.replacementTables, row = storedTable order table) ∨
      tableId ∉ commit.drops.map (fun drop => drop.table.tableId) ∧
        ((∃ replacement ∈ commit.replacements, replacement.next.tableId = tableId ∧
            row = storedTable order replacement.next) ∨ view.rows.get? tableId = some row) := by
  simp only [MetadataCommit.writes, List.foldl_append] at found
  rcases foldl_apply_rows order (commit.replacementTables.map .create) _ tableId with ⟨_, same⟩ | ⟨write, member, _, same⟩
  · rw [same] at found
    rcases foldl_apply_rows order (commit.drops.map dropWrite) _ tableId with ⟨undropped, same⟩ | ⟨write, member, _, same⟩
    · rw [same] at found
      rcases foldl_apply_rows order (commit.createdTables.map .create) _ tableId with ⟨_, same⟩ | ⟨write, member, _, same⟩
      · rw [same] at found
        have stays : tableId ∉ commit.drops.map (fun drop => drop.table.tableId) := by
          rw [List.map_map] at undropped
          exact undropped
        refine Or.inr ⟨stays, ?_⟩
        rcases foldl_apply_rows order (commit.replacements.map replacementWrite) view tableId with
          ⟨_, same⟩ | ⟨write, member, here, same⟩
        · exact Or.inr (same.symm.trans found)
        · obtain ⟨replacement, listed, rfl⟩ := List.mem_map.mp member
          exact Or.inl ⟨replacement, listed, here, (Option.some.inj (same.symm.trans found)).symm⟩
      · obtain ⟨table, listed, rfl⟩ := List.mem_map.mp member
        exact Or.inl ⟨table, List.mem_append_left _ listed, (Option.some.inj (same.symm.trans found)).symm⟩
    · obtain ⟨drop, _, rfl⟩ := List.mem_map.mp member
      cases same.symm.trans found
  · obtain ⟨table, listed, rfl⟩ := List.mem_map.mp member
    exact Or.inl ⟨table, List.mem_append_right _ listed, (Option.some.inj (same.symm.trans found)).symm⟩

/-! ## The transaction -/

theorem stageMaxId_tableView (store : FdbStore) (ids : List Nat) : (stageMaxId store ids).tableView = store.tableView := by
  unfold stageMaxId
  cases ids.max? with
  | none => rfl
  | some id => rfl

theorem stageMaxId_recorded (store : FdbStore) (ids : List Nat) : (stageMaxId store ids).recorded = store.recorded := by
  unfold stageMaxId
  cases ids.max? with
  | none => rfl
  | some id => rfl

theorem stageTables_recorded (order : CatalogOrderId) (commit : MetadataCommit) (store : FdbStore) :
    (stageTables order commit store).recorded = store.recorded := by
  unfold stageTables
  dsimp only
  have relates := relatesStages_recorded order
  exact (relates.notes _ _).trans ((relates.created _ _).trans ((relates.dropped commit.seen _ _).trans
    ((relates.notes _ _).trans ((relates.notes _ _).trans ((relates.created _ _).trans
      (relates.replaced commit.replacements store))))))

/-- What a transaction leaves, family by family. -/
structure MetadataCommit.Leaves (commit : MetadataCommit) (store next : MetadataStore) : Prop where
  lastOrder : next.catalog.lastOrder = store.catalog.commitOrder
  latest : ∃ snapshot, latestSnapshot next.catalog.kv = some snapshot ∧ snapshot.order = store.catalog.commitOrder
  tables : next.catalog.tableView =
    commit.writes.foldl (TableWrite.apply store.catalog.commitOrder) store.catalog.tableView
  schemas : next.catalog.schemaObject = storeVersions store.catalog.schemaObject
    (schemaWrites store.catalog.commitOrder commit.createdSchemas commit.droppedSchemas)
  views : next.viewObject = storeVersions store.viewObject (viewWrites store.catalog.commitOrder commit.views)

theorem MetadataCommit.transact_leaves (commit : MetadataCommit) (store : MetadataStore) :
    commit.Leaves store (commit.transact store) := by
  have views : ∀ (prepared : PreparedViewChanges) (staged : MetadataStore),
      (stageViewChanges store.catalog.commitOrder prepared staged).catalog.recorded = staged.catalog.recorded ∧
        (stageViewChanges store.catalog.commitOrder prepared staged).catalog.tableView = staged.catalog.tableView :=
    fun prepared staged => ⟨stageMaxId_recorded _ _, stageMaxId_tableView _ _⟩
  have schemas : (stageSchemas store.catalog.commitOrder commit.createdSchemas commit.droppedSchemas
      (openTableCommit commit.now commit.sequence commit.metadata store.catalog)).tableView = store.catalog.tableView :=
    stageMaxId_tableView _ _
  have opened := stageMaxId_recorded { openTableCommit commit.now commit.sequence commit.metadata store.catalog with
    schemaObject := storeVersions store.catalog.schemaObject
      (schemaWrites store.catalog.commitOrder commit.createdSchemas commit.droppedSchemas) }
    (commit.createdSchemas.map SchemaRow.schemaId)
  have recorded := (views commit.views { store with
    catalog := stageTables store.catalog.commitOrder commit (stageSchemas store.catalog.commitOrder commit.createdSchemas
      commit.droppedSchemas (openTableCommit commit.now commit.sequence commit.metadata store.catalog)) }).1.trans
    ((stageTables_recorded store.catalog.commitOrder commit _).trans opened)
  have tables := (views commit.views { store with
    catalog := stageTables store.catalog.commitOrder commit (stageSchemas store.catalog.commitOrder commit.createdSchemas
      commit.droppedSchemas (openTableCommit commit.now commit.sequence commit.metadata store.catalog)) }).2.trans
    (stageTables_tableView store.catalog.commitOrder commit _)
  rw [schemas] at tables
  refine ⟨rfl, ⟨mutationSnapshot commit.now store.catalog.commitOrder commit.sequence commit.metadata, ?_, rfl⟩,
    tables, congrArg Recorded.schemaObject recorded, rfl⟩
  have latest := congrArg Recorded.latestSnapshotRow recorded
  exact (congrArg (OrderedMap.get? · ()) latest).trans (OrderedMap.get?_insert_self _ _ _)

end DucklakeCatalog.Fdb
