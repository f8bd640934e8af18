import DucklakeCatalog.Attempt.AssembledFacts

/-! The ids that the created tables of an attempt get, and when none of them was used before. -/
namespace DucklakeCatalog

open KeyedStore

namespace TableIntentAssembler

variable {assembler next : TableIntentAssembler} {fact : TableFact}

def createdIds (assembler : TableIntentAssembler) : List TableId := assembler.createdRows.map TableRow.tableId

def currentIds (assembler : TableIntentAssembler) : List TableId :=
  (listTablesAt assembler.kv assembler.baseOrder).map TableRow.tableId

/-- One above the ids of the current and the created tables, where there is such an id. -/
def idAbove (assembler : TableIntentAssembler) : TableId :=
  saturatingAdd (max (assembler.currentIds.max?.getD 0) (assembler.createdIds.max?.getD 0)) 1

/-- A requested id that no current or created table has must never have been used;
of one that some has, the id above them all must not have been. -/
def FreshRequest (Used : TableId → Prop) (assembler : TableIntentAssembler) (requested : TableId) : Prop :=
  if requested ∈ assembler.currentIds ∨ requested ∈ assembler.createdIds then
    assembler.idAbove ∉ assembler.createdIds ∧ ¬Used assembler.idAbove
  else ¬Used requested

/-- Each created table of a list of facts asks for a fresh id when its turn comes. -/
def FreshRequests (Used : TableId → Prop) : TableIntentAssembler → List TableFact → Prop
  | _, [] => True
  | assembler, fact :: rest =>
    (∀ table, fact = .createTable table → FreshRequest Used assembler table.tableId) ∧
      ∀ next, assembler.apply fact = .ok next → FreshRequests Used next rest

theorem persistedTableIdForCreate_eq (assembler : TableIntentAssembler) (requested : TableId) :
    assembler.persistedTableIdForCreate requested =
      if requested ∈ assembler.currentIds ∨ requested ∈ assembler.createdIds then assembler.idAbove else requested := by
  have current : ((listTablesAt assembler.kv assembler.baseOrder).any fun table => table.tableId = requested) = true ↔
      requested ∈ assembler.currentIds := by
    simp [currentIds, List.any_eq_true]
  have created : (assembler.createdRows.any fun table => table.tableId = requested) = true ↔
      requested ∈ assembler.createdIds := by
    simp [createdIds, List.any_eq_true]
  unfold persistedTableIdForCreate
  simp only [Bool.not_eq_true', Bool.eq_false_iff, ne_eq, current, created]
  by_cases known : requested ∈ assembler.currentIds ∨ requested ∈ assembler.createdIds
  · rw [if_pos known, if_neg (fun unknown => known.elim unknown.1 unknown.2)]
    rfl
  · rw [if_neg known, if_pos ⟨fun isCurrent => known (Or.inl isCurrent), fun isCreated => known (Or.inr isCreated)⟩]

/-- A created table adds the id it gets. -/
theorem applyCreateTableFact_createdIds {table : TableRow} (creates : assembler.applyCreateTableFact table = .ok next) :
    next.createdIds.Perm (assembler.persistedTableIdForCreate table.tableId :: assembler.createdIds) := by
  unfold applyCreateTableFact at creates
  split at creates
  · cases creates
  · rename_i unknown
    obtain rfl := Except.ok.inj creates
    have missing : assembler.createdTables.get? table.tableId = none := by
      simpa using fun known => unknown (Or.inl known)
    have inserted := assembler.createdTables.entries_insert_perm table.tableId
      { table with tableId := assembler.persistedTableIdForCreate table.tableId }
    rw [OrderedMap.entries_erase_of_none missing] at inserted
    have ids := inserted.map fun entry => entry.2.tableId
    simpa [createdIds, createdRows, List.map_map, Function.comp_def] using ids

/-- Other facts leave the ids of the created tables as they are. -/
theorem tableMut_createdIds {tableId : TableId} {change : TableRow → CatalogResult TableRow} (keeps : KeepsPlace change)
    (changed : assembler.tableMut tableId change = .ok next) : next.createdIds.Perm assembler.createdIds := by
  unfold tableMut at changed
  split at changed
  · rename_i table isCreated
    obtain ⟨row, accepted, rfl⟩ := map_eq_ok.mp changed
    have inserted := assembler.createdTables.entries_insert_perm tableId row
    have before := OrderedMap.entries_perm_erase isCreated
    have after := inserted.map fun entry => entry.2.tableId
    have earlier := before.map fun entry => entry.2.tableId
    rw [List.map_cons, (keeps table row accepted).1] at after
    rw [List.map_cons] at earlier
    have ids := after.trans earlier.symm
    simpa [createdIds, createdRows, List.map_map, Function.comp_def] using ids
  · simp only [bind_eq_ok, pure_eq_ok] at changed
    obtain ⟨table, _, row, _, rfl⟩ := changed
    exact List.Perm.refl _

/-- Different ids that were not used before. -/
def FreshIds (Used : TableId → Prop) (ids : List TableId) : Prop := ids.Nodup ∧ ∀ id ∈ ids, ¬Used id

theorem FreshIds.perm {Used : TableId → Prop} {left right : List TableId} (same : left.Perm right) :
    FreshIds Used left ↔ FreshIds Used right := by
  unfold FreshIds
  rw [same.nodup_iff]
  simp only [same.mem_iff]

theorem freshIds_cons {Used : TableId → Prop} {id : TableId} {ids : List TableId} :
    FreshIds Used (id :: ids) ↔ (id ∉ ids ∧ ¬Used id) ∧ FreshIds Used ids := by
  simp only [FreshIds, List.nodup_cons, List.mem_cons, forall_eq_or_imp]
  tauto

theorem apply_freshIds {Used : TableId → Prop} (applies : assembler.apply fact = .ok next) :
    FreshIds Used next.createdIds ↔
      (∀ table, fact = .createTable table → FreshRequest Used assembler table.tableId) ∧
        FreshIds Used assembler.createdIds := by
  rcases apply_cases assembler fact with ⟨table, rfl⟩ | ⟨tableId, change, about, changed, keeps⟩
  · rw [FreshIds.perm (applyCreateTableFact_createdIds applies), freshIds_cons, persistedTableIdForCreate_eq]
    have request : (∀ created, TableFact.createTable table = .createTable created →
        FreshRequest Used assembler created.tableId) ↔ FreshRequest Used assembler table.tableId := by
      constructor
      · exact fun fresh => fresh table rfl
      · rintro fresh created same
        obtain rfl := TableFact.createTable.inj same
        exact fresh
    rw [request, FreshRequest]
    by_cases known : table.tableId ∈ assembler.currentIds ∨ table.tableId ∈ assembler.createdIds
    · rw [if_pos known, if_pos known]
    · rw [if_neg known, if_neg known]
      have isNew : table.tableId ∉ assembler.createdIds := fun isCreated => known (Or.inr isCreated)
      simp only [isNew, not_false_eq_true, true_and]
  · rw [FreshIds.perm (tableMut_createdIds keeps (changed.symm.trans applies))]
    constructor
    · refine fun fresh => ⟨?_, fresh⟩
      rintro table rfl
      cases about
    · exact fun fresh => fresh.2

/-- The created tables of a list of facts get fresh ids exactly when each asks for one. -/
theorem foldlM_apply_freshIds (Used : TableId → Prop) {facts : List TableFact}
    (applies : facts.foldlM apply assembler = .ok next) :
    FreshIds Used next.createdIds ↔ FreshRequests Used assembler facts ∧ FreshIds Used assembler.createdIds := by
  induction facts generalizing assembler with
  | nil =>
    obtain rfl := Except.ok.inj applies
    simp [FreshRequests]
  | cons fact rest ih =>
    rw [List.foldlM_cons, bind_eq_ok] at applies
    obtain ⟨middle, first, others⟩ := applies
    rw [ih others, apply_freshIds first, FreshRequests]
    constructor
    · rintro ⟨later, now, before⟩
      refine ⟨⟨now, ?_⟩, before⟩
      intro other step
      obtain rfl := Except.ok.inj (first.symm.trans step)
      exact later
    · rintro ⟨⟨now, later⟩, before⟩
      exact ⟨later middle first, now, before⟩

end TableIntentAssembler

end DucklakeCatalog
