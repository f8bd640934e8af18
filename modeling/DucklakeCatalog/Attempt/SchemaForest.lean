import DucklakeCatalog.Attempt.MetadataCommit
import DucklakeCatalog.KeyedStore.Forest

/-! What the checks of schema creations and drops have established once they
accept: the schemas an attempt leaves form a forest. -/
namespace DucklakeCatalog.Fdb

open KeyedStore

def schemaPlace (schema : SchemaRow) : Place SchemaId String where
  id := schema.schemaId
  parent := schema.parentSchemaId
  name := schema.name.toLower

def schemaPlaces (schemas : List SchemaRow) : Set (Place SchemaId String) :=
  fun place => ∃ schema ∈ schemas, schemaPlace schema = place

/-- The link of a schema to its parent, as a walk looks it up. -/
def SchemaParents.Link (parents : SchemaParents) (child parent : SchemaId) : Prop :=
  parents.get? child = some (some parent)

/-! ## Walks -/

variable {parents : SchemaParents}
variable {fuel : Nat} {seen : List SchemaId} {parentId schemaId : SchemaId} {parent : Option SchemaId}

/-- A walk that is accepted never comes to a schema it has seen. -/
theorem followSchemaParents_unseen {start : SchemaId}
    (accepted : followSchemaParents parents fuel seen (some start) = .ok ()) {finish : SchemaId}
    (path : Relation.ReflTransGen (PassesLink 0 parents.Link) start finish) : finish ∉ seen := by
  induction fuel generalizing seen start with
  | zero => simp [followSchemaParents] at accepted
  | succ fuel ih =>
    unfold followSchemaParents at accepted
    split at accepted
    · cases accepted
    · rename_i unseen
      rcases Relation.ReflTransGen.cases_head path with rfl | ⟨parent, ⟨beyond, linked⟩, rest⟩
      · exact unseen
      · rw [if_neg beyond, linked] at accepted
        intro known
        exact ih accepted rest (List.mem_cons_of_mem _ known)

/-- It leads to the root or to a schema that exists. -/
theorem followSchemaParents_exists (accepted : followSchemaParents parents fuel seen (some parentId) = .ok ()) :
    parentId = 0 ∨ ∃ parent, parents.get? parentId = some parent := by
  cases fuel with
  | zero => simp [followSchemaParents] at accepted
  | succ fuel =>
    unfold followSchemaParents at accepted
    by_cases isRoot : parentId = 0
    · exact Or.inl isRoot
    · rw [if_neg isRoot] at accepted
      split at accepted
      · cases accepted
      · split at accepted
        · cases accepted
        · rename_i parent found
          exact Or.inr ⟨parent, found⟩

/-- The schemas that a walk has not come to yet. -/
def unseenSchemas (parents : SchemaParents) (seen : List SchemaId) : List SchemaId :=
  (parents.entries.map Prod.fst).filter fun schemaId => schemaId ∉ seen

theorem rejectInvalidSchemaParents_walk (accepted : rejectInvalidSchemaParents parents = .ok ())
    (found : parents.get? schemaId = some parent) :
    followSchemaParents parents (parents.entries.length + 1) [schemaId] parent = .ok () :=
  forM_eq_ok_iff.mp accepted (schemaId, parent) ((OrderedMap.get?_eq_some_iff parents).mp found)

theorem rejectInvalidSchemaParents_acyclic
    (accepted : rejectInvalidSchemaParents parents = .ok ()) (schemaId : SchemaId) :
    ¬Relation.TransGen parents.Link schemaId schemaId := by
  apply acyclic_of_walks 0
  intro child parent linked path
  have walk := rejectInvalidSchemaParents_walk accepted linked
  exact followSchemaParents_unseen walk path List.mem_cons_self

/-! ## Created and dropped schemas -/

/-- Created schemas have new ids and names, different from each other. -/
structure NewSchemas (ids : List SchemaId) (names : List (Option SchemaId × String)) (created : List SchemaRow) : Prop where
  ids : ∀ schema ∈ created, schema.schemaId ∉ ids
  names : ∀ schema ∈ created, schemaNameKey schema ∉ names
  idsApart : (created.map SchemaRow.schemaId).Nodup
  namesApart : (created.map schemaNameKey).Nodup

theorem foldlM_rejectRepeatedSchema {created : List SchemaRow} {known final : List SchemaId × List (Option SchemaId × String)}
    (accepted : created.foldlM rejectRepeatedSchema known = .ok final) : NewSchemas known.1 known.2 created := by
  have step : ∀ known schema next, rejectRepeatedSchema known schema = .ok next →
      (schema.schemaId ∉ known.1 ∧ next.1 = schema.schemaId :: known.1) ∧
        schemaNameKey schema ∉ known.2 ∧ next.2 = schemaNameKey schema :: known.2 := by
    intro known schema next taken
    unfold rejectRepeatedSchema at taken
    split at taken
    · cases taken
    · rename_i freshId
      split at taken
      · cases taken
      · rename_i freshName
        obtain rfl := Except.ok.inj taken
        exact ⟨⟨freshId, rfl⟩, freshName, rfl⟩
  obtain ⟨idsApart, ids⟩ := foldlM_nodup Prod.fst SchemaRow.schemaId accepted fun known schema next taken =>
    (step known schema next taken).1
  obtain ⟨namesApart, names⟩ := foldlM_nodup Prod.snd schemaNameKey accepted fun known schema next taken =>
    (step known schema next taken).2
  exact ⟨ids, names, idsApart, namesApart⟩

/-- Rows of one schema are the same row. -/
def OneRowEach (schemas : List SchemaRow) : Prop :=
  ∀ left ∈ schemas, ∀ right ∈ schemas, left.schemaId = right.schemaId → left = right

section Accepted

variable {current created : List SchemaRow} {dropped : List SchemaId}
variable {schema : SchemaRow} {currentTables : List TableRow} {droppedTableIds : List TableId}

theorem mem_keptSchemas :
    schema ∈ keptSchemas current dropped ↔ schema ∈ current ∧ schema.schemaId ∉ dropped := by
  simp [keptSchemas]

theorem mem_keptSchemas_ids (member : schema ∈ keptSchemas current dropped) :
    schema.schemaId ∈ (keptSchemas current dropped).map SchemaRow.schemaId := List.mem_map_of_mem member

/-- The schemas an attempt leaves. -/
abbrev leftSchemas (current created : List SchemaRow) (dropped : List SchemaId) : List SchemaRow :=
  keptSchemas current dropped ++ created

theorem NewSchemas.oneRowEach (unique : OneRowEach current)
    (fresh : NewSchemas ((keptSchemas current dropped).map SchemaRow.schemaId)
      ((keptSchemas current dropped).map schemaNameKey) created) : OneRowEach (leftSchemas current created dropped) := by
  intro left leftMember right rightMember same
  rcases List.mem_append.mp leftMember with leftKept | leftCreated
  · rcases List.mem_append.mp rightMember with rightKept | rightCreated
    · exact unique left (mem_keptSchemas.mp leftKept).1 right (mem_keptSchemas.mp rightKept).1 same
    · exact absurd (same ▸ mem_keptSchemas_ids leftKept) (fresh.ids right rightCreated)
  · rcases List.mem_append.mp rightMember with rightKept | rightCreated
    · exact absurd (same ▸ mem_keptSchemas_ids rightKept) (fresh.ids left leftCreated)
    · exact List.inj_on_of_nodup_map fresh.idsApart leftCreated rightCreated same

theorem NewSchemas.siblings (forest : Forest 0 (schemaPlaces current))
    (fresh : NewSchemas ((keptSchemas current dropped).map SchemaRow.schemaId)
      ((keptSchemas current dropped).map schemaNameKey) created) :
    ∀ left ∈ leftSchemas current created dropped, ∀ right ∈ leftSchemas current created dropped,
      schemaNameKey left = schemaNameKey right → left.schemaId = right.schemaId := by
  intro left leftMember right rightMember same
  rcases List.mem_append.mp leftMember with leftKept | leftCreated
  · rcases List.mem_append.mp rightMember with rightKept | rightCreated
    · obtain ⟨sameParent, sameName⟩ := Prod.mk.inj same
      exact forest.siblings _ ⟨left, (mem_keptSchemas.mp leftKept).1, rfl⟩ _
        ⟨right, (mem_keptSchemas.mp rightKept).1, rfl⟩ sameParent sameName
    · exact absurd (same ▸ List.mem_map_of_mem leftKept) (fresh.names right rightCreated)
  · rcases List.mem_append.mp rightMember with rightKept | rightCreated
    · exact absurd (same ▸ List.mem_map_of_mem rightKept) (fresh.names left leftCreated)
    · exact congrArg SchemaRow.schemaId (List.inj_on_of_nodup_map fresh.namesApart leftCreated rightCreated same)

variable {schemas : List SchemaRow} {table : TableRow}

/-- The walks look links up where each schema has one row. -/
theorem schemaParents_get? (unique : OneRowEach schemas)
    (member : schema ∈ schemas) : (schemaParents schemas).get? schema.schemaId = some schema.parentSchemaId := by
  rcases OrderedMap.get?_foldl_insert_cases OrderedMap.empty schemas SchemaRow.schemaId SchemaRow.parentSchemaId
    schema.schemaId with ⟨other, listed, same, found⟩ | ⟨missed, _⟩
  · rw [unique schema member other listed same.symm]
    rw [← same] at found
    exact found
  · exact absurd rfl (missed schema member)

theorem schemaParents_source
    (found : (schemaParents schemas).get? schemaId = some parent) : ∃ schema ∈ schemas, schema.schemaId = schemaId := by
  rcases OrderedMap.get?_foldl_insert_cases OrderedMap.empty schemas SchemaRow.schemaId SchemaRow.parentSchemaId
    schemaId with ⟨schema, listed, same, _⟩ | ⟨_, missing⟩
  · exact ⟨schema, listed, same⟩
  · rw [OrderedMap.get?_empty] at missing
    exact absurd (missing.symm.trans found) (by simp)

/-- Accepted creations leave a forest. -/
theorem rejectSchemaCreateConflicts_forest (unique : OneRowEach current) (forest : Forest 0 (schemaPlaces current))
    (some : created ≠ []) (accepted : rejectSchemaCreateConflicts current created dropped = .ok ()) :
    OneRowEach (leftSchemas current created dropped) ∧ Forest 0 (schemaPlaces (leftSchemas current created dropped)) ∧
      ∀ schema ∈ created, schema.schemaId ∈ current.map SchemaRow.schemaId → schema.schemaId ∈ dropped := by
  unfold rejectSchemaCreateConflicts at accepted
  rw [if_neg some] at accepted
  simp only [bind_eq_ok] at accepted
  obtain ⟨_, walked, final, folded, _⟩ := accepted
  have fresh := foldlM_rejectRepeatedSchema folded
  have oneRow := fresh.oneRowEach unique
  refine ⟨oneRow, ⟨?_, ?_, ?_⟩, ?_⟩
  · intro schemaId cycle
    refine rejectInvalidSchemaParents_acyclic walked schemaId (Relation.TransGen.mono ?_ _ _ cycle)
    rintro child parent ⟨place, ⟨schema, member, rfl⟩, rfl, linked⟩
    exact (schemaParents_get? oneRow member).trans (congrArg Option.some linked)
  · rintro place ⟨schema, member, rfl⟩ parent linked
    have walk := rejectInvalidSchemaParents_walk walked (schemaParents_get? oneRow member)
    have linked : schema.parentSchemaId = Option.some parent := linked
    rw [linked] at walk
    rcases followSchemaParents_exists walk with isRoot | ⟨above, found⟩
    · exact Or.inl isRoot
    · obtain ⟨other, listed, same⟩ := schemaParents_source found
      exact Or.inr ⟨schemaPlace other, ⟨other, listed, rfl⟩, same⟩
  · rintro left ⟨leftRow, leftMember, rfl⟩ right ⟨rightRow, rightMember, rfl⟩ sameParent sameName
    exact fresh.siblings forest leftRow leftMember rightRow rightMember (Prod.ext sameParent sameName)
  · intro schema member known
    by_contra stays
    obtain ⟨other, listed, same⟩ := List.mem_map.mp known
    have kept : other ∈ keptSchemas current dropped := mem_keptSchemas.mpr ⟨listed, same ▸ stays⟩
    exact fresh.ids schema member (same ▸ mem_keptSchemas_ids kept)

/-- Accepted drops leave no child without its parent. -/
theorem rejectSchemaDropConflicts_children
    (accepted : rejectSchemaDropConflicts current currentTables dropped droppedTableIds = .ok ())
    (kept : schema ∈ keptSchemas current dropped) (linked : schema.parentSchemaId = some parentId) :
    parentId ∉ dropped := by
  obtain ⟨member, stays⟩ := mem_keptSchemas.mp kept
  unfold rejectSchemaDropConflicts at accepted
  split at accepted
  · rename_i none
    rw [none]
    exact List.not_mem_nil
  · simp only [bind_eq_ok] at accepted
    obtain ⟨_, children, _⟩ := accepted
    have checked := forM_eq_ok_iff.mp children schema member
    intro isDropped
    rw [if_pos ⟨by simpa [linked] using isDropped, stays⟩] at checked
    cases checked

/-- No table of a dropped schema stays. -/
theorem rejectSchemaDropConflicts_tables
    (accepted : rejectSchemaDropConflicts current currentTables dropped droppedTableIds = .ok ())
    (listed : table ∈ currentTables) (stays : table.tableId ∉ droppedTableIds) : table.schemaId ∉ dropped := by
  unfold rejectSchemaDropConflicts at accepted
  split at accepted
  · rename_i none
    rw [none]
    exact List.not_mem_nil
  · simp only [bind_eq_ok] at accepted
    obtain ⟨_, _, tables⟩ := accepted
    have checked := forM_eq_ok_iff.mp tables table listed
    intro isDropped
    rw [if_pos ⟨isDropped, stays⟩] at checked
    cases checked

theorem keptSchemas_forest (forest : Forest 0 (schemaPlaces current))
    (accepted : rejectSchemaDropConflicts current currentTables dropped droppedTableIds = .ok ()) :
    Forest 0 (schemaPlaces (keptSchemas current dropped)) := by
  refine forest.subset ?_ ?_
  · rintro place ⟨schema, kept, rfl⟩
    exact ⟨schema, (mem_keptSchemas.mp kept).1, rfl⟩
  · rintro place ⟨schema, kept, rfl⟩ parent linked above ⟨other, listed, rfl⟩ same
    have stays := rejectSchemaDropConflicts_children accepted kept linked
    have same : other.schemaId = parent := same
    exact Or.inr ⟨schemaPlace other, ⟨other, mem_keptSchemas.mpr ⟨listed, same ▸ stays⟩, rfl⟩, same⟩

/-- The schemas an accepted attempt leaves form a forest, one row each; a created
one that was there before has been dropped. -/
theorem leftSchemas_forest (unique : OneRowEach current) (forest : Forest 0 (schemaPlaces current))
    (creates : rejectSchemaCreateConflicts current created dropped = .ok ())
    (drops : rejectSchemaDropConflicts current currentTables dropped droppedTableIds = .ok ()) :
    OneRowEach (leftSchemas current created dropped) ∧ Forest 0 (schemaPlaces (leftSchemas current created dropped)) ∧
      ∀ schema ∈ created, schema.schemaId ∈ current.map SchemaRow.schemaId → schema.schemaId ∈ dropped := by
  by_cases none : created = []
  · subst none
    rw [leftSchemas, List.append_nil]
    refine ⟨?_, keptSchemas_forest forest drops, by simp⟩
    intro left leftMember right rightMember same
    exact unique left (mem_keptSchemas.mp leftMember).1 right (mem_keptSchemas.mp rightMember).1 same
  · exact rejectSchemaCreateConflicts_forest unique forest none creates

/-- Created tables go to schema 0 or to a schema that the attempt leaves. -/
theorem rejectTableTargetSchemaConflicts_target {tables : List TableRow}
    (accepted : rejectTableTargetSchemaConflicts current created dropped tables = .ok ())
    (member : table ∈ tables) : table.schemaId = 0 ∨ table.schemaId ∈ schemaIdsAfter current created dropped := by
  have checked := forM_eq_ok_iff.mp accepted table member
  by_contra elsewhere
  rw [not_or] at elsewhere
  rw [if_pos elsewhere] at checked
  cases checked

end Accepted

end DucklakeCatalog.Fdb
