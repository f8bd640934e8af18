import DucklakeCatalog.Fdb.Tables
import DucklakeCatalog.KeyedStore.Versioned

/-! Schemas and views of a catalog, and what a commit attempt prepares to change
of them. -/
namespace DucklakeCatalog.Fdb

open KeyedStore

abbrev ViewId := Nat

structure ViewRow where
  viewId : ViewId
  schemaId : SchemaId
  uuid : String := ""
  name : String
  dialect : String := ""
  sql : String := ""
  columnAliases : List String := []
  comment : Option String := none
  validity : ValidityWindow
  deriving DecidableEq, Repr

/-- The catalog with the views; of macros only the windows matter here. -/
structure MetadataStore where
  catalog : FdbStore := {}
  viewObject : Versions ViewRow := .empty
  macros : List ValidityWindow := []

def SchemaRow.endOrder (row : SchemaRow) : Option CatalogOrderId := row.validity.endOrder

def ViewRow.endOrder (row : ViewRow) : Option CatalogOrderId := row.validity.endOrder

/-! ## Reading -/

def SchemaRow.beginning (order : CatalogOrderId) (row : SchemaRow) : SchemaRow :=
  { row with validity := { row.validity with beginOrder := order } }

def ViewRow.beginning (order : CatalogOrderId) (row : ViewRow) : ViewRow :=
  { row with validity := { row.validity with beginOrder := order } }

/-- The last version begun by the snapshot, if it is still visible there. -/
def loadSchemaAt (seen : FdbStore) (schemaId : SchemaId) (snapshotOrder : CatalogOrderId) : Option SchemaRow :=
  loadVersion seen.schemaObject SchemaRow.beginning (fun row => row.validity.isVisibleAt snapshotOrder) schemaId
    snapshotOrder

def loadViewAt (seen : MetadataStore) (viewId : ViewId) (snapshotOrder : CatalogOrderId) : Option ViewRow :=
  loadVersion seen.viewObject ViewRow.beginning (fun row => row.validity.isVisibleAt snapshotOrder) viewId snapshotOrder

def listViewsAt (seen : MetadataStore) (snapshotOrder : CatalogOrderId) : List ViewRow :=
  listVersions seen.viewObject ViewRow.beginning fun row => row.validity.isVisibleAt snapshotOrder

/-! ## View changes -/

structure ViewRename where
  viewId : ViewId
  newName : String
  deriving DecidableEq, Repr

structure ViewCommentChange where
  viewId : ViewId
  comment : Option String
  deriving DecidableEq, Repr

structure PreparedViewChanges where
  createdViews : List ViewRow := []
  replacements : OrderedMap ViewId (ViewRow × Option ViewRow) := .empty

/-- Change the first item that is wanted. -/
def updateFirst {α : Type} (wanted : α → Bool) (update : α → α) : List α → List α
  | [] => []
  | item :: rest => if wanted item then update item :: rest else item :: updateFirst wanted update rest

def rejectDuplicateCreatedViews (views : List ViewRow) : CatalogResult Unit := do
  let _ ← views.foldlM
    (fun (ids, names) view =>
      if view.viewId ∈ ids then
        .error (.invalidMutation s!"view {view.viewId} is listed more than once for create")
      else if (view.schemaId, view.name.toLower) ∈ names then
        .error (.invalidMutation
          s!"view name {view.name} is listed more than once for create in schema {view.schemaId}")
      else .ok (view.viewId :: ids, (view.schemaId, view.name.toLower) :: names))
    ([], [])

def sameName (schemaId : SchemaId) (name : String) (existingSchemaId : SchemaId) (existingName : String) : Bool :=
  existingSchemaId = schemaId ∧ existingName.toLower = name.toLower

def rejectCreatedViewConflicts (currentViews : List ViewRow) (currentTables : List TableRow) (createdViews : List ViewRow)
    (droppedIds : List ViewId) : CatalogResult Unit :=
  createdViews.forM fun view =>
    if currentViews.any fun existing => existing.viewId = view.viewId ∧ existing.viewId ∉ droppedIds then
      .error (.invalidMutation s!"conflict creating view {view.name}: view id {view.viewId} already exists")
    else if (currentViews.any fun existing =>
          sameName view.schemaId view.name existing.schemaId existing.name ∧ existing.viewId ∉ droppedIds) ||
        currentTables.any fun existing => sameName view.schemaId view.name existing.schemaId existing.name then
      .error (.invalidMutation s!"conflict creating view {view.name}: name already exists in schema {view.schemaId}")
    else .ok ()

def rejectViewNameConflict (currentViews renamedViews createdViews : List ViewRow) (droppedIds : List ViewId)
    (previous : ViewRow) (newName : String) : CatalogResult Unit :=
  if (currentViews.any fun view => sameName previous.schemaId newName view.schemaId view.name ∧
        view.viewId ≠ previous.viewId ∧ view.viewId ∉ droppedIds) ||
      (renamedViews.any fun view => sameName previous.schemaId newName view.schemaId view.name) ||
      createdViews.any fun view => sameName previous.schemaId newName view.schemaId view.name then
    .error (.invalidMutation s!"view name {newName} already exists in schema {previous.schemaId}")
  else .ok ()

def findView (currentViews : List ViewRow) (viewId : ViewId) : CatalogResult ViewRow :=
  (currentViews.find? fun view => view.viewId = viewId).elim (.error (.notFound "view")) .ok

/-- Renames of views that the attempt creates are applied to these; the others are left. -/
def renameCreatedViews (createdViews : List ViewRow) (renames : List ViewRename) : List ViewRow × List ViewRename :=
  renames.foldl
    (fun (createdViews, currentRenames) rename =>
      if createdViews.any fun view => view.viewId = rename.viewId then
        (updateFirst (fun view => view.viewId = rename.viewId) (fun view => { view with name := rename.newName })
          createdViews, currentRenames)
      else (createdViews, currentRenames ++ [rename]))
    (createdViews, [])

/-- A comment on a dropped view is passed over. -/
def commentCreatedViews (createdViews : List ViewRow) (droppedIds : List ViewId) (changes : List ViewCommentChange) :
    List ViewRow × List ViewCommentChange :=
  changes.foldl
    (fun (createdViews, currentChanges) change =>
      if createdViews.any fun view => view.viewId = change.viewId then
        (updateFirst (fun view => view.viewId = change.viewId) (fun view => { view with comment := change.comment })
          createdViews, currentChanges)
      else if change.viewId ∈ droppedIds then (createdViews, currentChanges)
      else (createdViews, currentChanges ++ [change]))
    (createdViews, [])

abbrev ViewReplacements := OrderedMap ViewId (ViewRow × Option ViewRow)

/-- A view that the attempt only creates to drop it again is neither created by now nor current. -/
def dropCurrentView (currentViews createdViews : List ViewRow) (replacements : ViewReplacements) (viewId : ViewId) :
    CatalogResult ViewReplacements :=
  if viewId ∈ createdViews.map ViewRow.viewId ∧ viewId ∉ currentViews.map ViewRow.viewId then .ok replacements
  else do
    let previous ← findView currentViews viewId
    return replacements.insert viewId (previous, none)

def renameCurrentView (currentViews createdViews : List ViewRow) (droppedIds : List ViewId)
    (state : List ViewRow × ViewReplacements) (rename : ViewRename) : CatalogResult (List ViewRow × ViewReplacements) := do
  let previous ← findView currentViews rename.viewId
  if previous.viewId ∈ droppedIds then
    .error (.invalidMutation s!"view {previous.viewId} is both dropped and renamed")
  else
    rejectViewNameConflict currentViews state.1 createdViews droppedIds previous rename.newName
    let next := { previous with name := rename.newName }
    return (state.1 ++ [next], state.2.insert previous.viewId (previous, some next))

def commentCurrentView (currentViews : List ViewRow) (replacements : ViewReplacements) (change : ViewCommentChange) :
    CatalogResult ViewReplacements := do
  let previous ← findView currentViews change.viewId
  match ((replacements.get? change.viewId).getD (previous, some previous)) with
  | (_, none) => .error (.notFound "view")
  | (replaced, some next) =>
    return replacements.insert change.viewId (replaced, some { next with comment := change.comment })

def prepareViewChanges (createdViews : List ViewRow) (renames : List ViewRename) (droppedIds : List ViewId)
    (commentChanges : List ViewCommentChange) (currentViews : List ViewRow) (currentTables : List TableRow) :
    CatalogResult PreparedViewChanges := do
  rejectRepeatedIds (fun viewId => s!"view {viewId} is listed more than once for drop") droppedIds
  rejectRepeatedIds (fun viewId => s!"view {viewId} is listed more than once for rename") (renames.map ViewRename.viewId)
  rejectDuplicateCreatedViews createdViews
  let (createdViews, currentRenames) := renameCreatedViews createdViews renames
  let (createdViews, currentChanges) := commentCreatedViews createdViews droppedIds commentChanges
  let createdViews := createdViews.filter fun view =>
    view.viewId ∉ droppedIds ∨ view.viewId ∈ currentViews.map ViewRow.viewId
  rejectDuplicateCreatedViews createdViews
  rejectCreatedViewConflicts currentViews currentTables createdViews droppedIds
  let dropped ← droppedIds.foldlM (dropCurrentView currentViews createdViews) .empty
  let (_, renamed) ← currentRenames.foldlM (renameCurrentView currentViews createdViews droppedIds) ([], dropped)
  let replacements ← currentChanges.foldlM (commentCurrentView currentViews) renamed
  return { createdViews, replacements }

/-! ## Staging -/

/-- The rows a commit stores: dropped schemas with their end, then created ones. -/
def schemaWrites (order : CatalogOrderId) (createdSchemas droppedSchemas : List SchemaRow) :
    List ((SchemaId ×ₗ CatalogOrderId) × SchemaRow) :=
  (droppedSchemas.map fun schema => (toLex (schema.schemaId, schema.validity.beginOrder),
    { schema with validity := { schema.validity with endOrder := some order } })) ++
  createdSchemas.map fun schema => (toLex (schema.schemaId, order), { schema with validity := ⟨autoOrder, none⟩ })

/-- A replaced view ends, and its next version, if it has one, begins. -/
def viewReplacementWrites (order : CatalogOrderId) (entry : ViewId × (ViewRow × Option ViewRow)) :
    List ((ViewId ×ₗ CatalogOrderId) × ViewRow) :=
  let (viewId, previous, next) := entry
  (toLex (viewId, previous.validity.beginOrder),
    { previous with validity := { previous.validity with endOrder := some order } }) ::
  next.toList.map fun next => (toLex (viewId, order), { next with validity := ⟨autoOrder, none⟩ })

def viewWrites (order : CatalogOrderId) (prepared : PreparedViewChanges) :
    List ((ViewId ×ₗ CatalogOrderId) × ViewRow) :=
  prepared.replacements.entries.flatMap (viewReplacementWrites order) ++
  prepared.createdViews.map fun view => (toLex (view.viewId, order), { view with validity := ⟨autoOrder, none⟩ })

def stageMaxId (store : FdbStore) (ids : List Nat) : FdbStore :=
  ids.max?.elim store fun id => { store with kv := stageMaxCatalogIdWatermark store.kv id }

def stageSchemas (order : CatalogOrderId) (createdSchemas droppedSchemas : List SchemaRow) (store : FdbStore) :
    FdbStore :=
  stageMaxId { store with
    schemaObject := storeVersions store.schemaObject (schemaWrites order createdSchemas droppedSchemas) }
    (createdSchemas.map SchemaRow.schemaId)

/-- Every view that a version begins for raises the watermark. -/
def stageViewChanges (order : CatalogOrderId) (prepared : PreparedViewChanges) (store : MetadataStore) : MetadataStore :=
  let begun := (prepared.replacements.entries.filter fun entry => entry.2.2.isSome).map Prod.fst ++
    prepared.createdViews.map ViewRow.viewId
  { store with
    catalog := stageMaxId store.catalog begun
    viewObject := storeVersions store.viewObject (viewWrites order prepared) }

end DucklakeCatalog.Fdb
