import DucklakeCatalog.Attempt.AssembledFacts
import DucklakeCatalog.Attempt.MetadataEffects
import DucklakeCatalog.KeyedStore.History

/-! Runs of metadata commit attempts. Each attempt is checked on one state of the
catalog, prepared on another and commits on the newest one. -/
namespace DucklakeCatalog.Fdb

open KeyedStore

structure MetadataMoment where
  store : MetadataStore
  commit : Option (MetadataAttempt × MetadataCommit) := none

abbrev MetadataHistory := History MetadataMoment

def MetadataHistory.stores (history : MetadataHistory) : List MetadataStore := history.states.map MetadataMoment.store

def MetadataStep (toLowercase : String → String) (history : MetadataHistory) (moment : MetadataMoment) : Prop :=
  ∃ attempt commit created, moment.commit = some (attempt, commit) ∧
    (∃ read ∈ MetadataHistory.stores history, ∃ seen ∈ MetadataHistory.stores history,
      commitMetadataIntents toLowercase read seen attempt = .ok (some (commit, created))) ∧
    moment.store = commit.transact history.current.store

/-- A catalog with a snapshot and with nothing but the default schema. -/
structure MetadataStore.Bare (store : MetadataStore) : Prop where
  latest : ∃ snapshot, latestSnapshot store.catalog.kv = some snapshot ∧ snapshot.order ≤ store.catalog.lastOrder
  schemas : store.catalog.schemaObject = .empty
  views : store.viewObject = .empty
  tables : store.catalog.kv.currentTableRow = .empty

/-- Every interleaving of metadata attempts on a catalog that starts bare. -/
abbrev MetadataRun (toLowercase : String → String) (history : MetadataHistory) : Prop :=
  History.Reachable (fun moment => moment.commit = none ∧ moment.store.Bare) (MetadataStep toLowercase) history

/-! ## What a catalog holds -/

def currentSchemas (store : MetadataStore) : List SchemaRow :=
  (latestSnapshot store.catalog.kv).elim [] fun latest => listSchemasAt store.catalog latest.order

def currentViews (store : MetadataStore) : List ViewRow :=
  (latestSnapshot store.catalog.kv).elim [] fun latest => listViewsAt store latest.order

/-- The schema is the default one or one of these. -/
def IsSchemaOf (schemaIds : List SchemaId) (schemaId : SchemaId) : Prop := schemaId = 0 ∨ schemaId ∈ schemaIds

/-- Schemas form a forest, and every current table and view is in one of them. -/
structure CatalogContained (store : MetadataStore) : Prop where
  forest : Forest 0 (schemaPlaces (currentSchemas store))
  tables : ∀ tableId table, store.catalog.kv.currentTableRow.get? tableId = some table →
    IsSchemaOf ((currentSchemas store).map SchemaRow.schemaId) table.schemaId
  views : ∀ view ∈ currentViews store, IsSchemaOf ((currentSchemas store).map SchemaRow.schemaId) view.schemaId

/-! ## Conditions on an attempt -/

/-- The two commits write the same. -/
structure MetadataCommit.SameWrites (left right : MetadataCommit) : Prop where
  createdSchemas : left.createdSchemas = right.createdSchemas
  droppedSchemas : left.droppedSchemas = right.droppedSchemas
  tables : left.writes = right.writes
  views : left.views = right.views

/-- The attempt would have been accepted, with the same writes, on the state it commits on. -/
def MetadataMoment.PreparedInPlace (toLowercase : String → String) (store : MetadataStore) (moment : MetadataMoment) :
    Prop :=
  ∀ attempt commit, moment.commit = some (attempt, commit) → ∃ fresh created,
    commitMetadataIntents toLowercase store store attempt = .ok (some (fresh, created)) ∧ commit.SameWrites fresh

/-- The ids of the schemas that an attempt leaves, besides the default one. -/
def MetadataAttempt.schemaIdsAfter (attempt : MetadataAttempt) (store : MetadataStore) : List SchemaId :=
  Fdb.schemaIdsAfter (currentSchemas store) attempt.createdSchemas attempt.droppedSchemaIds

/-- No view is put into or left in a schema that is not there, and only current tables are changed. -/
structure MetadataAttempt.Contained (attempt : MetadataAttempt) (store : MetadataStore) : Prop where
  createdViews : ∀ view ∈ attempt.createdViews,
    view.viewId ∉ attempt.droppedViewIds ∨ view.viewId ∈ (currentViews store).map ViewRow.viewId →
      IsSchemaOf (attempt.schemaIdsAfter store) view.schemaId
  keptViews : ∀ view ∈ currentViews store, view.viewId ∉ attempt.droppedViewIds →
    IsSchemaOf (attempt.schemaIdsAfter store) view.schemaId
  changedTables : ∀ latest, latestSnapshot store.catalog.kv = some latest → ∀ tableId ∈ attempt.existingTableIds,
    ∀ table, loadTableAt store.catalog.kv tableId latest.order = some table →
      store.catalog.kv.currentTableRow.get? tableId = some table

/-! ## Accepted attempts -/

/-- Everything an accepted attempt has passed through, on one state. -/
structure AcceptedAttempt (toLowercase : String → String) (store : MetadataStore) (attempt : MetadataAttempt)
    (commit : MetadataCommit) (latest : SnapshotRow) (facts : MetadataFacts) (parts : TableCommitParts) : Prop where
  isLatest : latestSnapshot store.catalog.kv = some latest
  assembled : assembleFacts store.catalog.kv latest.order attempt.intents = .ok facts
  finished : facts.tables.intoCommitParts toLowercase = .ok parts
  checked : rejectMetadataConflicts store latest attempt facts parts = .ok ()
  prepared : prepareMetadataCommit store attempt facts parts = .ok commit

theorem commitMetadataIntents_accepted {toLowercase : String → String} {store : MetadataStore} {attempt : MetadataAttempt}
    {commit : MetadataCommit} {created : List CreatedTable}
    (accepted : commitMetadataIntents toLowercase store store attempt = .ok (some (commit, created))) :
    ∃ latest facts parts, AcceptedAttempt toLowercase store attempt commit latest facts parts := by
  unfold commitMetadataIntents at accepted
  split at accepted
  · cases accepted
  · simp only [bind_eq_ok, pure_eq_ok, Option.some.injEq, Prod.mk.injEq] at accepted
    obtain ⟨latest, loads, facts, assembled, parts, finished, _, checked, prepared, prepares, rfl, _⟩ := accepted
    exact ⟨latest, facts, parts, loadLatestSnapshot_ok loads, assembled, finished, checked, prepares⟩

/-- The commit of an accepted attempt, part by part. -/
structure MetadataCommit.PreparedFrom (commit : MetadataCommit) (store : MetadataStore) (latest : SnapshotRow)
    (facts : MetadataFacts) (parts : TableCommitParts) : Prop where
  createdSchemas : commit.createdSchemas = facts.createdSchemas
  loadedSchemas : facts.droppedSchemaIds.mapM (loadDroppedSchema store.catalog latest) = .ok commit.droppedSchemas
  createdTables : commit.createdTables = parts.createdRows
  replacements : commit.replacements = parts.replacements
  drops : prepareTableDrops store.catalog.kv facts.droppedTableIds = .ok commit.drops
  replacementTables : commit.replacementTables = facts.replacementTables
  views : prepareViews store latest facts = .ok commit.views

theorem prepareMetadataCommit_ok {store : MetadataStore} {attempt : MetadataAttempt} {facts : MetadataFacts}
    {parts : TableCommitParts} {commit : MetadataCommit}
    (prepares : prepareMetadataCommit store attempt facts parts = .ok commit) :
    ∃ latest, latestSnapshot store.catalog.kv = some latest ∧ commit.PreparedFrom store latest facts parts := by
  unfold prepareMetadataCommit at prepares
  rw [bind_eq_ok] at prepares
  obtain ⟨latest, loads, prepares⟩ := prepares
  rw [bind_eq_ok] at prepares
  obtain ⟨schemas, loadsSchemas, prepares⟩ := prepares
  rw [bind_eq_ok] at prepares
  obtain ⟨drops, preparesDrops, prepares⟩ := prepares
  have viewed : ∃ views, prepareViews store latest facts = .ok views ∧ commit = {
      seen := store.catalog.kv, now := attempt.now, sequence := attempt.sequence, metadata := attempt.commitMetadata
      createdSchemas := facts.createdSchemas, droppedSchemas := schemas, createdTables := parts.createdRows
      replacements := parts.replacements, drops, replacementTables := facts.replacementTables, views } := by
    split at prepares
    · simp only [bind_eq_ok, pure_eq_ok] at prepares
      obtain ⟨_, _, views, preparesViews, rfl⟩ := prepares
      exact ⟨views, preparesViews, rfl⟩
    · simp only [bind_eq_ok, pure_eq_ok] at prepares
      obtain ⟨views, preparesViews, rfl⟩ := prepares
      exact ⟨views, preparesViews, rfl⟩
  obtain ⟨views, preparesViews, rfl⟩ := viewed
  exact ⟨latest, loadLatestSnapshot_ok loads, rfl, loadsSchemas, rfl, rfl, preparesDrops, rfl, preparesViews⟩

variable {schemaId : SchemaId}

theorem loadDroppedSchema_ok {seen : FdbStore} {latest : SnapshotRow} {schema : SchemaRow} :
    loadDroppedSchema seen latest schemaId = .ok schema ↔ loadSchemaAt seen schemaId latest.order = some schema := by
  unfold loadDroppedSchema
  cases loadSchemaAt seen schemaId latest.order with
  | none => simp
  | some loaded => simp

/-! ## The step -/

/-- What the proof needs to know of a catalog besides what it holds. -/
structure MetadataStore.Ready (store : MetadataStore) (latest : SnapshotRow) : Prop where
  isLatest : latestSnapshot store.catalog.kv = some latest
  past : latest.order ≤ store.catalog.lastOrder
  schemas : VersionsWithin SchemaRow.endOrder store.catalog.schemaObject latest.order
  schemaIds : VersionsKeyed SchemaRow.schemaId store.catalog.schemaObject
  views : VersionsWithin ViewRow.endOrder store.viewObject latest.order
  viewIds : VersionsKeyed ViewRow.viewId store.viewObject
  tableIds : ∀ {tableId table}, store.catalog.kv.currentTableRow.get? tableId = some table → table.tableId = tableId

section Step

variable {toLowercase : String → String} {store next : MetadataStore} {attempt : MetadataAttempt}
  {commit : MetadataCommit} {latest : SnapshotRow} {facts : MetadataFacts} {parts : TableCommitParts}

theorem MetadataStore.Ready.later (ready : store.Ready latest) : latest.order < store.catalog.commitOrder :=
  Nat.lt_succ_of_le ready.past

theorem MetadataStore.Ready.currentSchemas_eq (ready : store.Ready latest) :
    currentSchemas store = listSchemasAt store.catalog latest.order := by
  rw [currentSchemas, ready.isLatest]
  rfl

theorem MetadataStore.Ready.currentViews_eq (ready : store.Ready latest) :
    currentViews store = listViewsAt store latest.order := by
  rw [currentViews, ready.isLatest]
  rfl

variable {tableId : TableId} {table : TableRow}

/-- A current table is among the tables that are listed at the latest snapshot. -/
theorem MetadataStore.Ready.listed (ready : store.Ready latest)
    (found : store.catalog.kv.currentTableRow.get? tableId = some table) :
    table ∈ listTablesAt store.catalog.kv latest.order := by
  have member : table ∈ listCurrentTableRows store.catalog.kv := by
    unfold listCurrentTableRows
    rw [List.mem_insertionSort]
    exact List.mem_map.mpr ⟨(tableId, table), (OrderedMap.get?_eq_some_iff _).mp found, rfl⟩
  have some : listCurrentTableRows store.catalog.kv ≠ [] := List.ne_nil_of_mem member
  unfold listTablesAt
  dsimp only
  rw [if_pos ⟨by simp [ready.isLatest], some⟩]
  exact member

theorem isSchemaOf_map {schemas : List SchemaRow} {places : List SchemaRow}
    (same : schemaPlaces schemas = schemaPlaces places)
    (isSchema : IsSchemaOf (places.map SchemaRow.schemaId) schemaId) :
    IsSchemaOf (schemas.map SchemaRow.schemaId) schemaId := by
  refine isSchema.imp_right ?_
  intro member
  obtain ⟨schema, listed, rfl⟩ := List.mem_map.mp member
  have here : schemaPlace schema ∈ schemaPlaces schemas := same ▸ ⟨schema, listed, rfl⟩
  obtain ⟨other, known, place⟩ := here
  exact List.mem_map.mpr ⟨other, known, congrArg Place.id place⟩

namespace AcceptedAttempt

variable (accepted : AcceptedAttempt toLowercase store attempt commit latest facts parts)

include accepted

theorem assembledFacts : attempt.Facts store.catalog.kv latest.order facts := assembleFacts_facts accepted.assembled

theorem preparedFrom : commit.PreparedFrom store latest facts parts := by
  obtain ⟨seen, isSeen, prepared⟩ := prepareMetadataCommit_ok accepted.prepared
  obtain rfl := Option.some.inj (accepted.isLatest.symm.trans isSeen)
  exact prepared

/-- The four checks that bear on schemas, each accepted. -/
theorem checks :
    rejectSchemaCreateConflicts (listSchemasAt store.catalog latest.order) attempt.createdSchemas
        attempt.droppedSchemaIds = .ok () ∧
      rejectTableTargetSchemaConflicts (listSchemasAt store.catalog latest.order) attempt.createdSchemas
        attempt.droppedSchemaIds (commit.createdTables ++ commit.replacementTables) = .ok () ∧
      rejectSchemaDropConflicts (listSchemasAt store.catalog latest.order)
        (listTablesAt store.catalog.kv latest.order) attempt.droppedSchemaIds attempt.droppedTableIds = .ok () := by
  have checked := accepted.checked
  have prepared := accepted.preparedFrom
  have isFacts := accepted.assembledFacts
  unfold rejectMetadataConflicts at checked
  simp only [bind_eq_ok] at checked
  obtain ⟨_, creates, _, targets, _, drops, _⟩ := checked
  rw [isFacts.createdSchemas, isFacts.droppedSchemaIds] at creates targets
  rw [isFacts.droppedSchemaIds, isFacts.droppedTableIds] at drops
  rw [prepared.createdTables, prepared.replacementTables]
  exact ⟨creates, targets, drops⟩

theorem leftForest (ready : store.Ready latest) (contained : CatalogContained store) :
    OneRowEach (leftSchemas (listSchemasAt store.catalog latest.order) attempt.createdSchemas attempt.droppedSchemaIds) ∧
      Forest 0 (schemaPlaces (leftSchemas (listSchemasAt store.catalog latest.order) attempt.createdSchemas
        attempt.droppedSchemaIds)) ∧
      ∀ schema ∈ attempt.createdSchemas,
        schema.schemaId ∈ (listSchemasAt store.catalog latest.order).map SchemaRow.schemaId →
          schema.schemaId ∈ attempt.droppedSchemaIds := by
  have forest := contained.forest
  rw [ready.currentSchemas_eq] at forest
  obtain ⟨creates, _, drops⟩ := accepted.checks
  exact leftSchemas_forest (listSchemasAt_oneRowEach ready.schemas ready.schemaIds) forest creates drops

theorem schemaChanges (ready : store.Ready latest) (contained : CatalogContained store) :
    SchemaChanges store.catalog latest.order commit.createdSchemas commit.droppedSchemas attempt.droppedSchemaIds := by
  have prepared := accepted.preparedFrom
  have isFacts := accepted.assembledFacts
  have loads := prepared.loadedSchemas
  rw [isFacts.droppedSchemaIds] at loads
  refine ⟨?_, ?_, ?_⟩
  · intro schema member
    obtain ⟨schemaId, listed, isLoaded⟩ := mapM_source loads member
    exact ⟨schemaId, listed, loadDroppedSchema_ok.mp isLoaded⟩
  · intro schemaId listed
    obtain ⟨schema, member, isLoaded⟩ := mapM_accepts loads listed
    exact ⟨schema, member, loadDroppedSchema_ok.mp isLoaded⟩
  · rw [prepared.createdSchemas, isFacts.createdSchemas]
    exact (accepted.leftForest ready contained).2.2

theorem preparedViews :
    PreparedViews (listViewsAt store latest.order) attempt.createdViews attempt.droppedViewIds commit.views := by
  have prepared := prepareViews_prepared accepted.preparedFrom.views
  rwa [accepted.assembledFacts.createdViews, accepted.assembledFacts.droppedViewIds] at prepared

/-- The schema of a table that was current stays, unless the table is dropped. -/
theorem tableSchema_stays (ready : store.Ready latest) (contained : CatalogContained store)
    (found : store.catalog.kv.currentTableRow.get? tableId = some table)
    (stays : tableId ∉ attempt.droppedTableIds) : IsSchemaOf (attempt.schemaIdsAfter store) table.schemaId := by
  have sameId := ready.tableIds found
  have undropped := rejectSchemaDropConflicts_tables accepted.checks.2.2 (ready.listed found) (sameId.symm ▸ stays)
  refine (contained.tables tableId table found).imp_right ?_
  intro known
  obtain ⟨schema, listed, same⟩ := List.mem_map.mp known
  have kept : schema ∈ keptSchemas (currentSchemas store) attempt.droppedSchemaIds :=
    mem_keptSchemas.mpr ⟨listed, same ▸ undropped⟩
  exact List.mem_map.mpr ⟨schema, List.mem_append_left _ kept, same⟩

variable (ready : store.Ready latest)

include ready

/-- A table that a drop names has no row of its own left. -/
theorem dropped_iff :
    tableId ∈ commit.drops.map (fun drop => drop.table.tableId) ↔ tableId ∈ attempt.droppedTableIds := by
  have drops := accepted.preparedFrom.drops
  rw [accepted.assembledFacts.droppedTableIds] at drops
  have loaded : ∀ {query drop}, (loadCurrentTableRow store.catalog.kv query).map (prepareTableDrop store.catalog.kv) =
      .ok drop → drop.table.tableId = query := by
    intro query drop prepares
    obtain ⟨row, loads, rfl⟩ := map_eq_ok.mp prepares
    unfold loadCurrentTableRow at loads
    cases found : store.catalog.kv.currentTableRow.get? query with
    | none =>
      rw [found] at loads
      cases loads
    | some current =>
      rw [found] at loads
      obtain rfl := Except.ok.inj loads
      exact ready.tableIds found
  constructor
  · intro member
    obtain ⟨drop, listed, rfl⟩ := List.mem_map.mp member
    obtain ⟨query, named, prepares⟩ := mapM_source drops listed
    exact (loaded prepares).symm ▸ named
  · intro named
    obtain ⟨drop, listed, prepares⟩ := mapM_accepts drops named
    exact List.mem_map.mpr ⟨drop, listed, loaded prepares⟩

/-- Every row of a current table after the commit is in a schema the attempt leaves. -/
theorem tables_after (contained : CatalogContained store) (keeps : attempt.Contained store)
    (leaves : commit.Leaves store next) (found : next.catalog.kv.currentTableRow.get? tableId = some table) :
    IsSchemaOf (attempt.schemaIdsAfter store) table.schemaId := by
  have rows := congrArg (fun view => OrderedMap.get? view.rows tableId) leaves.tables
  rcases writes_rows commit store.catalog.commitOrder store.catalog.tableView (rows.symm.trans found) with
    ⟨created, member, rfl⟩ | ⟨undropped, ⟨replacement, member, here, rfl⟩ | before⟩
  · have target := rejectTableTargetSchemaConflicts_target accepted.checks.2.1 member
    rw [MetadataAttempt.schemaIdsAfter, ready.currentSchemas_eq]
    exact target
  · rw [accepted.preparedFrom.replacements] at member
    obtain ⟨about, loads, sameId, sameSchema⟩ := accepted.assembledFacts.replacement accepted.finished member
    have current := keeps.changedTables latest ready.isLatest replacement.tableId about replacement.previous loads
    have isTable : replacement.tableId = tableId := (ready.tableIds current).symm.trans (sameId.symm.trans here)
    have stays : replacement.tableId ∉ attempt.droppedTableIds := by
      rw [isTable, ← accepted.dropped_iff ready]
      exact undropped
    have inSchema := accepted.tableSchema_stays ready contained current stays
    exact sameSchema ▸ inSchema
  · exact accepted.tableSchema_stays ready contained before (mt (accepted.dropped_iff ready).mpr undropped)

theorem views_after (keeps : attempt.Contained store) (leaves : commit.Leaves store next)
    {view : ViewRow} (listed : view ∈ listViewsAt next store.catalog.commitOrder) :
    IsSchemaOf (attempt.schemaIdsAfter store) view.schemaId := by
  have views := accepted.preparedViews
  rcases views.listed_after ready.views ready.viewIds ready.later leaves.views listed with
    ⟨⟨created, member, sameId, sameSchema⟩, remains⟩ | ⟨⟨current, member, sameId, sameSchema⟩, undropped⟩
  · rw [← ready.currentViews_eq] at remains
    exact sameSchema ▸ keeps.createdViews created member (sameId ▸ remains)
  · rw [← ready.currentViews_eq] at member
    exact sameSchema ▸ keeps.keptViews current member (sameId ▸ undropped)

theorem schemas_after (contained : CatalogContained store) (leaves : commit.Leaves store next) :
    schemaPlaces (listSchemasAt next.catalog store.catalog.commitOrder) =
      schemaPlaces (leftSchemas (listSchemasAt store.catalog latest.order) attempt.createdSchemas
        attempt.droppedSchemaIds) := by
  have changes := accepted.schemaChanges ready contained
  have created : commit.createdSchemas = attempt.createdSchemas :=
    accepted.preparedFrom.createdSchemas.trans accepted.assembledFacts.createdSchemas
  have oneRow := (accepted.leftForest ready contained).1
  rw [← created] at oneRow ⊢
  exact changes.places_after ready.schemas ready.schemaIds ready.later oneRow leaves.schemas

theorem ready_after (contained : CatalogContained store) (leaves : commit.Leaves store next) :
    ∃ newest, next.Ready newest ∧ newest.order = store.catalog.commitOrder := by
  obtain ⟨newest, isNewest, atOrder⟩ := leaves.latest
  have schemas := (accepted.schemaChanges ready contained).fit ready.schemas ready.schemaIds ready.later
  have views := accepted.preparedViews.fit ready.views ready.viewIds ready.later
  refine ⟨newest, ⟨isNewest, (atOrder.trans leaves.lastOrder.symm).le, ?_, ?_, ?_, ?_, ?_⟩, atOrder⟩
  · rw [atOrder, leaves.schemas]
    exact ready.schemas.after_writes schemas
  · rw [leaves.schemas]
    refine VersionsKeyed.storeVersions (fun found => ready.schemaIds found) ?_
    intro id order row member
    rcases mem_schemaWrites.mp member with ⟨schema, _, rfl, _, rfl⟩ | ⟨schema, _, rfl, _, rfl⟩
    · rfl
    · rfl
  · rw [atOrder, leaves.views]
    exact ready.views.after_writes views
  · rw [leaves.views]
    refine VersionsKeyed.storeVersions (fun found => ready.viewIds found) ?_
    intro id order row member
    rcases mem_viewWrites.mp member with ⟨previous, _, found, _, rfl⟩ | ⟨previous, successor, found, _, rfl⟩ |
      ⟨view, _, rfl, _, rfl⟩
    · exact (accepted.preparedViews.sound.current found).2
    · exact (accepted.preparedViews.sound.keeps found).2.1
    · rfl
  · intro tableId table found
    have rows := congrArg (fun view => OrderedMap.get? view.rows tableId) leaves.tables
    rcases foldl_apply_rows store.catalog.commitOrder commit.writes store.catalog.tableView tableId with
      ⟨_, same⟩ | ⟨write, _, here, same⟩
    · exact ready.tableIds (same.symm.trans (rows.symm.trans found))
    · have stored := same.symm.trans (rows.symm.trans found)
      cases write with
      | create created
      | replace replaced previous successor
      | rewrite previous successor =>
        obtain rfl := Option.some.inj stored
        exact here
      | drop dropped => cases stored

/-- A contained attempt leaves everything contained. -/
theorem contained_after (contained : CatalogContained store) (keeps : attempt.Contained store)
    (leaves : commit.Leaves store next) :
    ∃ newest, next.Ready newest ∧ CatalogContained next := by
  obtain ⟨newest, nextReady, atOrder⟩ := accepted.ready_after ready contained leaves
  have places := accepted.schemas_after ready contained leaves
  have isCurrent : currentSchemas next = listSchemasAt next.catalog store.catalog.commitOrder :=
    atOrder ▸ nextReady.currentSchemas_eq
  have stays : ∀ {schemaId}, IsSchemaOf (attempt.schemaIdsAfter store) schemaId →
      IsSchemaOf ((currentSchemas next).map SchemaRow.schemaId) schemaId := by
    intro schemaId isSchema
    rw [MetadataAttempt.schemaIdsAfter, ready.currentSchemas_eq] at isSchema
    rw [isCurrent]
    exact isSchemaOf_map places isSchema
  refine ⟨newest, nextReady, ⟨?_, ?_, ?_⟩⟩
  · rw [isCurrent, places]
    exact (accepted.leftForest ready contained).2.1
  · intro tableId table found
    exact stays (accepted.tables_after ready contained keeps leaves found)
  · intro view listed
    rw [nextReady.currentViews_eq, atOrder] at listed
    exact stays (accepted.views_after ready keeps leaves listed)

end AcceptedAttempt

/-- Commits that write the same leave the same. -/
theorem MetadataCommit.SameWrites.leaves {fresh : MetadataCommit} (same : commit.SameWrites fresh)
    (leaves : commit.Leaves store next) : fresh.Leaves store next where
  lastOrder := leaves.lastOrder
  latest := leaves.latest
  tables := same.tables ▸ leaves.tables
  schemas := same.createdSchemas ▸ same.droppedSchemas ▸ leaves.schemas
  views := same.views ▸ leaves.views

theorem MetadataStore.Bare.ready (bare : store.Bare) : ∃ latest, store.Ready latest ∧ CatalogContained store := by
  obtain ⟨latest, isLatest, past⟩ := bare.latest
  have schemas : currentSchemas store = [] := by
    rw [currentSchemas, isLatest]
    simp [listSchemasAt, bare.schemas]
  have views : currentViews store = [] := by
    rw [currentViews, isLatest]
    simp [listViewsAt, listVersions, bare.views]
  refine ⟨latest, ⟨isLatest, past, ?_, ?_, ?_, ?_, ?_⟩, ⟨?_, ?_, ?_⟩⟩
  · rw [bare.schemas]
    exact ⟨by simp, by simp⟩
  · intro id order row found
    simp [bare.schemas] at found
  · rw [bare.views]
    exact ⟨by simp, by simp⟩
  · intro id order row found
    simp [bare.views] at found
  · intro tableId table found
    simp [bare.tables] at found
  · rw [schemas]
    refine Forest.empty.subset ?_ ?_
    · rintro place ⟨schema, member, _⟩
      exact absurd member List.not_mem_nil
    · rintro place ⟨schema, member, _⟩
      exact absurd member List.not_mem_nil
  · intro tableId table found
    simp [bare.tables] at found
  · intro view listed
    rw [views] at listed
    exact absurd listed List.not_mem_nil

end Step

/-! ## Runs -/

/-- Schemas stay a forest that contains everything, in every run whose attempts
are prepared on the state they commit on and put or leave no view, and no table
that was no longer current, in a schema that is not there. -/
theorem reachable_catalogContained {toLowercase : String → String} {history : MetadataHistory}
    (run : MetadataRun toLowercase history)
    (inPlace : ∀ earlier moment, history.Took earlier moment → moment.PreparedInPlace toLowercase earlier.current.store)
    (keeps : ∀ earlier moment, history.Took earlier moment → ∀ attempt commit, moment.commit = some (attempt, commit) →
      attempt.Contained earlier.current.store) :
    ∀ moment ∈ history.states, CatalogContained moment.store := by
  suffices ready : ∀ moment ∈ history.states, ∃ latest, moment.store.Ready latest ∧ CatalogContained moment.store from
    fun moment member => (ready moment member).choose_spec.2
  induction run with
  | start isInitial =>
    intro moment member
    rw [History.states_start, List.mem_singleton] at member
    exact member ▸ isInitial.2.ready
  | @step history next earlier taken ih =>
    have before := ih (fun earlier moment took => inPlace earlier moment (History.took_extend.mpr (Or.inr took)))
      (fun earlier moment took => keeps earlier moment (History.took_extend.mpr (Or.inr took)))
    intro moment member
    rcases List.mem_cons.mp member with rfl | old
    · have took : (history.extend moment).Took history moment := History.took_extend.mpr (Or.inl ⟨rfl, rfl⟩)
      obtain ⟨attempt, commit, created, isCommit, _, stored⟩ := taken
      obtain ⟨fresh, _, prepares, same⟩ := inPlace history moment took attempt commit isCommit
      obtain ⟨latest, facts, parts, accepted⟩ := commitMetadataIntents_accepted prepares
      obtain ⟨known, ready, contained⟩ := before history.current history.current_mem
      obtain rfl := Option.some.inj (ready.isLatest.symm.trans accepted.isLatest)
      have leaves := commit.transact_leaves history.current.store
      rw [← stored] at leaves
      exact accepted.contained_after ready contained (keeps history moment took attempt commit isCommit)
        (same.leaves leaves)
    · exact before moment old


instance (schemaIds : List SchemaId) (schemaId : SchemaId) : Decidable (IsSchemaOf schemaIds schemaId) :=
  inferInstanceAs (Decidable (_ ∨ _))

/-- The moment after an attempt that is prepared on the state it commits on. -/
def MetadataMoment.attempting (store : MetadataStore) (attempt : MetadataAttempt) : MetadataMoment :=
  match commitMetadataIntents String.toLower store store attempt with
  | .ok (some (commit, _)) => ⟨commit.transact store, some (attempt, commit)⟩
  | _ => ⟨store, none⟩

theorem MetadataMoment.attempting_step (history : MetadataHistory) (attempt : MetadataAttempt)
    (commits : (MetadataMoment.attempting history.current.store attempt).commit.isSome) :
    MetadataStep String.toLower history (.attempting history.current.store attempt) ∧
      (MetadataMoment.attempting history.current.store attempt).PreparedInPlace String.toLower history.current.store ∧
      ∀ other commit, (MetadataMoment.attempting history.current.store attempt).commit = some (other, commit) →
        other = attempt := by
  unfold attempting at commits ⊢
  have here : history.current.store ∈ MetadataHistory.stores history := List.mem_map_of_mem history.current_mem
  split at commits
  · rename_i commit created prepares
    refine ⟨⟨attempt, commit, created, rfl, ⟨_, here, _, here, prepares⟩, rfl⟩, ?_, ?_⟩
    · intro other prepared isCommit
      obtain ⟨rfl, rfl⟩ := Prod.mk.inj (Option.some.inj isCommit)
      exact ⟨commit, created, prepares, rfl, rfl, rfl, rfl⟩
    · intro other prepared isCommit
      exact (Prod.mk.inj (Option.some.inj isCommit)).1.symm
  · cases commits

def bareStore : MetadataStore where
  catalog := FdbStore.commitAt { kv := stageSnapshot {} (mutationSnapshot 0 1 0 {}) } 1

theorem bareStore_bare : bareStore.Bare where
  latest := ⟨mutationSnapshot 0 1 0 {}, by decide, by decide⟩
  schemas := rfl
  views := rfl
  tables := rfl

/-- A schema with a table and a view. -/
def fillSchema : MetadataAttempt where
  now := 1
  sequence := 1
  intents := [.createSchemas [{ schemaId := 1, name := "sales", validity := ⟨autoOrder, none⟩ }],
    .createTables [{ tableId := 2, schemaId := 1, name := "orders", validity := ⟨autoOrder, none⟩ }],
    .createViews [{ viewId := 3, schemaId := 1, name := "open_orders", validity := ⟨autoOrder, none⟩ }]]

def dropSchema (viewIds : List ViewId) : MetadataAttempt where
  now := 2
  sequence := 2
  intents := [.dropSchemas [1], .replaceTables [2] [], .dropViews viewIds]

def filledMoment : MetadataMoment := .attempting bareStore fillSchema

def filledHistory : MetadataHistory := (History.start ⟨bareStore, none⟩).extend filledMoment

def droppedHistory (viewIds : List ViewId) : MetadataHistory :=
  filledHistory.extend (.attempting filledMoment.store (dropSchema viewIds))

theorem filledHistory_run : MetadataRun String.toLower filledHistory :=
  History.Reachable.step (History.Reachable.start ⟨rfl, bareStore_bare⟩)
    (MetadataMoment.attempting_step (History.start ⟨bareStore, none⟩) fillSchema (by decide +kernel)).1

theorem droppedHistory_run (viewIds : List ViewId)
    (commits : (MetadataMoment.attempting filledMoment.store (dropSchema viewIds)).commit.isSome) :
    MetadataRun String.toLower (droppedHistory viewIds) :=
  History.Reachable.step filledHistory_run (MetadataMoment.attempting_step filledHistory (dropSchema viewIds) commits).1

theorem fillSchema_contained : fillSchema.Contained bareStore where
  createdViews := by decide +kernel
  keptViews := by decide +kernel
  changedTables := by
    intro latest _ tableId listed
    have none : fillSchema.existingTableIds = [] := by decide +kernel
    rw [none] at listed
    exact absurd listed List.not_mem_nil

theorem dropSchema_contained : (dropSchema [3]).Contained filledMoment.store where
  createdViews := by decide +kernel
  keptViews := by decide +kernel
  changedTables := by
    intro latest _ tableId listed
    have none : (dropSchema [3]).existingTableIds = [] := by decide +kernel
    rw [none] at listed
    exact absurd listed List.not_mem_nil

/-- A schema is filled, and dropped with all that is in it. -/
theorem reachable_catalogContained_dropped :
    (currentViews filledMoment.store).map ViewRow.viewId = [3] ∧
      ∀ moment ∈ (droppedHistory [3]).states, CatalogContained moment.store := by
  have fills := MetadataMoment.attempting_step (History.start ⟨bareStore, none⟩) fillSchema (by decide +kernel)
  have dropped : (MetadataMoment.attempting filledMoment.store (dropSchema [3])).commit.isSome := by decide +kernel
  have drops := MetadataMoment.attempting_step filledHistory (dropSchema [3]) dropped
  refine ⟨by decide +kernel, reachable_catalogContained (droppedHistory_run [3] dropped) ?_ ?_⟩
  · intro earlier moment took
    rcases History.took_extend.mp took with ⟨rfl, rfl⟩ | took
    · exact drops.2.1
    · rcases History.took_extend.mp took with ⟨rfl, rfl⟩ | took
      · exact fills.2.1
      · exact absurd took (History.not_took_start _ _ _)
  · intro earlier moment took attempt commit isCommit
    rcases History.took_extend.mp took with ⟨rfl, rfl⟩ | took
    · exact (drops.2.2 attempt commit isCommit).symm ▸ dropSchema_contained
    · rcases History.took_extend.mp took with ⟨rfl, rfl⟩ | took
      · exact (fills.2.2 attempt commit isCommit).symm ▸ fillSchema_contained
      · exact absurd took (History.not_took_start _ _ _)

/-- A dropped schema leaves behind the view that was in it. -/
theorem droppedSchema_keeps_view : ¬∀ history, MetadataRun String.toLower history →
    ∀ moment ∈ history.states, CatalogContained moment.store := by
  intro contained
  have dropped : (MetadataMoment.attempting filledMoment.store (dropSchema [])).commit.isSome := by decide +kernel
  have inSchemas := (contained (droppedHistory []) (droppedHistory_run [] dropped) _ List.mem_cons_self).views
  revert inSchemas
  decide +kernel

end DucklakeCatalog.Fdb
