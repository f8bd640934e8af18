import DucklakeCatalog.Attempt.MetadataCommit

/-! The facts of an attempt in terms of the intents it lists. -/
namespace DucklakeCatalog

open KeyedStore

namespace TableIntentAssembler

variable {assembler next : TableIntentAssembler} {fact : TableFact}

/-- Changed tables are ones the facts are about, and they keep their id and their schema. -/
structure ChangesInPlace (assembler : TableIntentAssembler) (tableIds : List TableId) : Prop where
  about : ∀ {tableId table}, assembler.tables.get? tableId = some table → tableId ∈ tableIds
  tableId : ∀ {tableId table}, assembler.tables.get? tableId = some table → table.next.tableId = table.previous.tableId
  schemaId : ∀ {tableId table}, assembler.tables.get? tableId = some table → table.next.schemaId = table.previous.schemaId

theorem tableMut_changesInPlace {tableIds : List TableId} (changes : assembler.ChangesInPlace tableIds)
    {change : TableRow → CatalogResult TableRow}
    (keeps : ∀ table changed, change table = .ok changed →
      changed.tableId = table.tableId ∧ changed.schemaId = table.schemaId) {tableId : TableId}
    (changed : assembler.tableMut tableId change = .ok next) : next.ChangesInPlace (tableIds ++ [tableId]) := by
  have widened : assembler.ChangesInPlace (tableIds ++ [tableId]) :=
    ⟨fun found => List.mem_append_left _ (changes.about found), changes.tableId, changes.schemaId⟩
  unfold tableMut at changed
  split at changed
  · obtain ⟨row, _, rfl⟩ := map_eq_ok.mp changed
    exact ⟨widened.about, widened.tableId, widened.schemaId⟩
  · simp only [bind_eq_ok, pure_eq_ok] at changed
    obtain ⟨table, isTable, row, accepted, rfl⟩ := changed
    have before : table.next.tableId = table.previous.tableId ∧ table.next.schemaId = table.previous.schemaId := by
      unfold existing at isTable
      split at isTable
      · rename_i known found
        obtain rfl := Except.ok.inj isTable
        exact ⟨changes.tableId found, changes.schemaId found⟩
      · split at isTable
        · cases isTable
        · obtain rfl := Except.ok.inj isTable
          exact ⟨rfl, rfl⟩
    have kept := keeps table.next row accepted
    have cases : ∀ {other intent}, (assembler.tables.insert tableId ⟨table.previous, row⟩).get? other = some intent →
        (other = tableId ∧ intent = ⟨table.previous, row⟩) ∨ assembler.tables.get? other = some intent := by
      intro other intent found
      rw [OrderedMap.get?_insert] at found
      split at found
      · rename_i same
        exact Or.inl ⟨same, (Option.some.inj found).symm⟩
      · exact Or.inr found
    constructor
    · intro other intent found
      rcases cases found with ⟨rfl, _⟩ | known
      · exact List.mem_append_right _ List.mem_cons_self
      · exact widened.about known
    · intro other intent found
      rcases cases found with ⟨_, rfl⟩ | known
      · exact kept.1.trans before.1
      · exact widened.tableId known
    · intro other intent found
      rcases cases found with ⟨_, rfl⟩ | known
      · exact kept.2.trans before.2
      · exact widened.schemaId known

/-- A change of a table's row that leaves the table its id and its schema. -/
def KeepsPlace (change : TableRow → CatalogResult TableRow) : Prop :=
  ∀ table changed, change table = .ok changed → changed.tableId = table.tableId ∧ changed.schemaId = table.schemaId

theorem changeColumns_keeps (columns : TableRow → CatalogResult (List TableColumnRow)) :
    KeepsPlace fun table => table.changeColumns (columns table) := by
  intro table changed accepted
  obtain ⟨_, _, rfl⟩ := map_eq_ok.mp accepted
  exact ⟨rfl, rfl⟩

theorem update_keeps {update : TableRow → TableRow}
    (keeps : ∀ table, (update table).tableId = table.tableId ∧ (update table).schemaId = table.schemaId) :
    KeepsPlace fun table => .ok (update table) := by
  intro table changed accepted
  obtain rfl := Except.ok.inj accepted
  exact keeps table

/-- A fact creates a table or changes the row of an existing one in place. -/
theorem apply_cases (assembler : TableIntentAssembler) (fact : TableFact) :
    (∃ table, fact = .createTable table) ∨ ∃ tableId change, fact.existingTableId = some tableId ∧
      assembler.apply fact = assembler.tableMut tableId change ∧ KeepsPlace change := by
  cases fact with
  | createTable table => exact Or.inl ⟨table, rfl⟩
  | renameTable tableId newName => exact Or.inr ⟨tableId, _, rfl, rfl, update_keeps fun _ => ⟨rfl, rfl⟩⟩
  | addColumn tableId column
  | renameColumn tableId column
  | changeColumnDefault tableId column
  | changeColumnType tableId column
  | dropColumn tableId columnId => exact Or.inr ⟨tableId, _, rfl, rfl, changeColumns_keeps _⟩
  | changeTableComment tableId comment => exact Or.inr ⟨tableId, _, rfl, rfl, update_keeps fun _ => ⟨rfl, rfl⟩⟩
  | changeColumnComment tableId columnId comment => exact Or.inr ⟨tableId, _, rfl, rfl, changeColumns_keeps _⟩
  | changeSortKeys tableId sort
  | changePartitionKeys tableId partition => exact Or.inr ⟨tableId, _, rfl, rfl, update_keeps fun _ => ⟨rfl, rfl⟩⟩

theorem apply_changesInPlace {tableIds : List TableId} (changes : assembler.ChangesInPlace tableIds)
    (applies : assembler.apply fact = .ok next) : next.ChangesInPlace (tableIds ++ fact.existingTableId.toList) := by
  rcases apply_cases assembler fact with ⟨table, rfl⟩ | ⟨tableId, change, about, changed, keeps⟩
  · simp only [apply, applyCreateTableFact] at applies
    split at applies
    · cases applies
    · obtain rfl := Except.ok.inj applies
      rw [TableFact.existingTableId, Option.toList_none, List.append_nil]
      exact ⟨changes.about, changes.tableId, changes.schemaId⟩
  · rw [about]
    exact tableMut_changesInPlace changes keeps (changed.symm.trans applies)

theorem foldlM_apply_changesInPlace {facts : List TableFact} {tableIds : List TableId}
    (changes : assembler.ChangesInPlace tableIds) (applies : facts.foldlM apply assembler = .ok next) :
    next.ChangesInPlace (tableIds ++ facts.filterMap TableFact.existingTableId) := by
  induction facts generalizing assembler tableIds with
  | nil =>
    obtain rfl := Except.ok.inj applies
    simpa using changes
  | cons fact rest ih =>
    rw [List.foldlM_cons, bind_eq_ok] at applies
    obtain ⟨middle, first, others⟩ := applies
    have followed := ih (apply_changesInPlace changes first) others
    rw [List.append_assoc] at followed
    rw [List.filterMap_cons]
    cases about : fact.existingTableId with
    | none
    | some tableId => simpa [about] using followed

theorem foldlM_apply_sound {facts : List TableFact} (sound : assembler.Sound)
    (applies : facts.foldlM apply assembler = .ok next) :
    next.Sound ∧ next.kv = assembler.kv ∧ next.baseOrder = assembler.baseOrder := by
  refine foldlM_invariant (fun state : TableIntentAssembler => state.Sound ∧ state.kv = assembler.kv ∧
    state.baseOrder = assembler.baseOrder) applies ⟨sound, rfl, rfl⟩ ?_
  rintro state fact after _ ⟨isSound, sameKv, sameOrder⟩ step
  obtain ⟨_, _, changes⟩ := apply_changesRow step
  exact ⟨changes.sound isSound, changes.kv.trans sameKv, changes.baseOrder.trans sameOrder⟩

end TableIntentAssembler

end DucklakeCatalog

namespace DucklakeCatalog.Fdb

open KeyedStore

/-! ## What intents list -/

namespace MetadataIntent

@[simp] def createdSchemas : MetadataIntent → List SchemaRow
  | .createSchemas schemas => schemas
  | _ => []

@[simp] def droppedSchemaIds : MetadataIntent → List SchemaId
  | .dropSchemas schemaIds => schemaIds
  | _ => []

@[simp] def droppedTableIds : MetadataIntent → List TableId
  | .replaceTables tableIds _ => tableIds
  | _ => []

@[simp] def replacementTables : MetadataIntent → List TableRow
  | .replaceTables _ tables => tables
  | _ => []

@[simp] def createdViews : MetadataIntent → List ViewRow
  | .createViews views => views
  | _ => []

@[simp] def droppedViewIds : MetadataIntent → List ViewId
  | .dropViews viewIds => viewIds
  | _ => []

/-- The facts an intent lists, none where it is malformed. -/
def listedTableFacts (intent : MetadataIntent) : List TableFact := intent.tableFacts.toOption.getD []

end MetadataIntent

namespace MetadataAttempt

variable (attempt : MetadataAttempt)

def createdSchemas : List SchemaRow := attempt.intents.flatMap MetadataIntent.createdSchemas

def droppedSchemaIds : List SchemaId := attempt.intents.flatMap MetadataIntent.droppedSchemaIds

def droppedTableIds : List TableId := attempt.intents.flatMap MetadataIntent.droppedTableIds

def replacementTables : List TableRow := attempt.intents.flatMap MetadataIntent.replacementTables

def createdViews : List ViewRow := attempt.intents.flatMap MetadataIntent.createdViews

def droppedViewIds : List ViewId := attempt.intents.flatMap MetadataIntent.droppedViewIds

def tableFacts : List TableFact := attempt.intents.flatMap MetadataIntent.listedTableFacts

/-- The tables that the attempt changes and does not itself create. -/
def existingTableIds : List TableId := attempt.tableFacts.filterMap TableFact.existingTableId

end MetadataAttempt

/-- Facts that were put together from the intents, in their order. -/
structure MetadataFacts.Lists (start : MetadataFacts) (intents : List MetadataIntent) (facts : MetadataFacts) : Prop where
  createdSchemas : facts.createdSchemas = start.createdSchemas ++ intents.flatMap MetadataIntent.createdSchemas
  droppedSchemaIds : facts.droppedSchemaIds = start.droppedSchemaIds ++ intents.flatMap MetadataIntent.droppedSchemaIds
  droppedTableIds : facts.droppedTableIds = start.droppedTableIds ++ intents.flatMap MetadataIntent.droppedTableIds
  replacementTables : facts.replacementTables = start.replacementTables ++ intents.flatMap MetadataIntent.replacementTables
  createdViews : facts.createdViews = start.createdViews ++ intents.flatMap MetadataIntent.createdViews
  droppedViewIds : facts.droppedViewIds = start.droppedViewIds ++ intents.flatMap MetadataIntent.droppedViewIds
  tables : (intents.flatMap MetadataIntent.listedTableFacts).foldlM TableIntentAssembler.apply start.tables = .ok facts.tables

theorem applyTableFacts_lists {facts next : MetadataFacts} {intent : MetadataIntent} {tableFacts : List TableFact}
    (lists : intent.tableFacts = .ok tableFacts) (schemas : intent.createdSchemas = [])
    (droppedSchemas : intent.droppedSchemaIds = []) (droppedTables : intent.droppedTableIds = [])
    (replacements : intent.replacementTables = []) (views : intent.createdViews = [])
    (droppedViews : intent.droppedViewIds = []) (applies : facts.applyTableFacts tableFacts = .ok next) :
    facts.Lists [intent] next := by
  obtain ⟨tables, folded, rfl⟩ := map_eq_ok.mp applies
  have listed : intent.listedTableFacts = tableFacts := by
    rw [MetadataIntent.listedTableFacts, lists]
    rfl
  constructor <;> simp only [List.flatMap_singleton, schemas, droppedSchemas, droppedTables, replacements, views,
    droppedViews, List.append_nil, listed, folded]

/-- What an intent adds to the facts before it. -/
theorem applyIntent_lists {facts next : MetadataFacts} {intent : MetadataIntent}
    (applies : facts.applyIntent intent = .ok next) : facts.Lists [intent] next := by
  have tables : ∀ {tableFacts}, intent.tableFacts = .ok tableFacts → tableFacts = [] → next.tables = facts.tables →
      ([intent].flatMap MetadataIntent.listedTableFacts).foldlM TableIntentAssembler.apply facts.tables =
        .ok next.tables := by
    rintro tableFacts lists rfl same
    rw [List.flatMap_singleton, MetadataIntent.listedTableFacts, lists, same]
    rfl
  cases intent with
  | createSchemas schemas
  | dropSchemas schemaIds
  | replaceTables tableIds replaced
  | createViews views
  | dropViews viewIds
  | renameViews renames
  | changeViewComment change =>
    obtain rfl := Except.ok.inj applies
    refine ⟨?_, ?_, ?_, ?_, ?_, ?_, tables rfl rfl rfl⟩ <;> simp
  | createTables rows
  | addColumns columns
  | renameColumns columns
  | changeColumnDefaults columns
  | changeColumnTypes columns
  | renameTables renames
  | changeComments tables columns
  | dropColumns drops
  | changeSortKeys tableId sort =>
    obtain ⟨tableFacts, lists, changes⟩ := bind_eq_ok.mp applies
    exact applyTableFacts_lists lists rfl rfl rfl rfl rfl rfl changes
  | changePartitionKeys changes =>
    obtain ⟨tableFacts, lists, changed⟩ := bind_eq_ok.mp applies
    exact applyTableFacts_lists lists rfl rfl rfl rfl rfl rfl changed

theorem MetadataFacts.Lists.cons {start middle finish : MetadataFacts} {intent : MetadataIntent}
    {rest : List MetadataIntent} (first : start.Lists [intent] middle) (others : middle.Lists rest finish) :
    start.Lists (intent :: rest) finish := by
  have tables := first.tables
  rw [List.flatMap_singleton] at tables
  constructor
  · rw [others.createdSchemas, first.createdSchemas, List.flatMap_singleton, List.flatMap_cons, List.append_assoc]
  · rw [others.droppedSchemaIds, first.droppedSchemaIds, List.flatMap_singleton, List.flatMap_cons, List.append_assoc]
  · rw [others.droppedTableIds, first.droppedTableIds, List.flatMap_singleton, List.flatMap_cons, List.append_assoc]
  · rw [others.replacementTables, first.replacementTables, List.flatMap_singleton, List.flatMap_cons, List.append_assoc]
  · rw [others.createdViews, first.createdViews, List.flatMap_singleton, List.flatMap_cons, List.append_assoc]
  · rw [others.droppedViewIds, first.droppedViewIds, List.flatMap_singleton, List.flatMap_cons, List.append_assoc]
  · rw [List.flatMap_cons, List.foldlM_append, tables]
    exact others.tables

theorem foldlM_applyIntent_lists {start facts : MetadataFacts} {intents : List MetadataIntent}
    (applies : intents.foldlM MetadataFacts.applyIntent start = .ok facts) : start.Lists intents facts := by
  induction intents generalizing start with
  | nil =>
    obtain rfl := Except.ok.inj applies
    refine ⟨?_, ?_, ?_, ?_, ?_, ?_, rfl⟩ <;> simp
  | cons intent rest ih =>
    rw [List.foldlM_cons, bind_eq_ok] at applies
    obtain ⟨middle, first, others⟩ := applies
    exact (applyIntent_lists first).cons (ih others)

/-- The facts of an attempt are the ones its intents list. -/
structure MetadataAttempt.Facts (attempt : MetadataAttempt) (kv : CatalogKv) (baseOrder : CatalogOrderId)
    (facts : MetadataFacts) : Prop where
  createdSchemas : facts.createdSchemas = attempt.createdSchemas
  droppedSchemaIds : facts.droppedSchemaIds = attempt.droppedSchemaIds
  droppedTableIds : facts.droppedTableIds = attempt.droppedTableIds
  replacementTables : facts.replacementTables = attempt.replacementTables
  createdViews : facts.createdViews = attempt.createdViews
  droppedViewIds : facts.droppedViewIds = attempt.droppedViewIds
  tables : attempt.tableFacts.foldlM TableIntentAssembler.apply (.new kv baseOrder) = .ok facts.tables

theorem assembleFacts_facts {kv : CatalogKv} {baseOrder : CatalogOrderId} {attempt : MetadataAttempt}
    {facts : MetadataFacts} (assembles : assembleFacts kv baseOrder attempt.intents = .ok facts) :
    attempt.Facts kv baseOrder facts := by
  have lists := foldlM_applyIntent_lists assembles
  exact ⟨lists.createdSchemas, lists.droppedSchemaIds, lists.droppedTableIds, lists.replacementTables,
    lists.createdViews, lists.droppedViewIds, lists.tables⟩

namespace MetadataAttempt.Facts

variable {attempt : MetadataAttempt} {kv : CatalogKv} {baseOrder : CatalogOrderId} {facts : MetadataFacts}

section

variable (isFacts : attempt.Facts kv baseOrder facts)

include isFacts

/-- The tables an attempt has changed are versions of the base, changed in place. -/
theorem sound :
    facts.tables.Sound ∧ facts.tables.kv = kv ∧ facts.tables.baseOrder = baseOrder :=
  TableIntentAssembler.foldlM_apply_sound (TableIntentAssembler.new_sound kv baseOrder) isFacts.tables

theorem changesInPlace :
    facts.tables.ChangesInPlace attempt.existingTableIds := by
  have start : (TableIntentAssembler.new kv baseOrder).ChangesInPlace [] := by
    refine ⟨?_, ?_, ?_⟩ <;> simp [TableIntentAssembler.new]
  exact TableIntentAssembler.foldlM_apply_changesInPlace start isFacts.tables

/-- A replacement of an accepted attempt. -/
theorem replacement {toLowercase : String → String}
    {parts : TableCommitParts} (finished : facts.tables.intoCommitParts toLowercase = .ok parts)
    {replacement : TableVersionReplacement} (member : replacement ∈ parts.replacements) :
    replacement.tableId ∈ attempt.existingTableIds ∧
      loadTableAt kv replacement.tableId baseOrder = some replacement.previous ∧
      replacement.next.tableId = replacement.previous.tableId ∧
      replacement.next.schemaId = replacement.previous.schemaId := by
  rw [(TableIntentAssembler.intoCommitParts_finished finished).replaced] at member
  obtain ⟨entry, listed, rfl⟩ := List.mem_map.mp member
  obtain ⟨stored, _⟩ := TableIntentAssembler.mem_changedTables.mp listed
  have changes := isFacts.changesInPlace
  obtain ⟨isSound, sameKv, sameOrder⟩ := isFacts.sound
  have based := isSound.based entry.1 entry.2 stored
  rw [sameKv, sameOrder] at based
  exact ⟨changes.about stored, based, changes.tableId stored, changes.schemaId stored⟩

end

end MetadataAttempt.Facts

end DucklakeCatalog.Fdb
