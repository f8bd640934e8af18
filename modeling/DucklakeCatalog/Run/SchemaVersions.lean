import DucklakeCatalog.Run.SnapshotIndexes
import DucklakeCatalog.Run.TableListings
import DucklakeCatalog.Snapshot.Listing

namespace DucklakeCatalog

open KeyedStore

/-! ## Schema changes and groups -/

/-- No schema changes after the first order up to the last one. -/
def NoSchemaChange (context : PublicSnapshotCoalesceContext) (first last : CatalogOrderId) : Prop :=
  ∀ change ∈ catalogSchemaChangeOrders context.metadata context.tables, first < change → ¬change ≤ last

/-- Schema changes up to an order. -/
def schemaChangesThrough (context : PublicSnapshotCoalesceContext) (order : CatalogOrderId) : Nat :=
  ((catalogSchemaChangeOrders context.metadata context.tables).filter fun change => change ≤ order).length

theorem schemaChangesThrough_congr {context : PublicSnapshotCoalesceContext} {first second : CatalogOrderId}
    (upward : NoSchemaChange context first second) (downward : NoSchemaChange context second first) :
    schemaChangesThrough context first = schemaChangesThrough context second := by
  unfold schemaChangesThrough
  congr 1
  apply List.filter_congr
  intro change changes
  rw [decide_eq_decide]
  constructor
  · exact fun reached => not_lt.mp fun past => downward change changes past reached
  · exact fun reached => not_lt.mp fun past => upward change changes past reached

/-- The groups that some choice of snapshots coalesces to. -/
inductive FormsGroup (context : PublicSnapshotCoalesceContext) (Chosen : SnapshotRow → Prop) : PublicSnapshot → Prop
  | alone {snapshot : SnapshotRow} (chosen : Chosen snapshot) : FormsGroup context Chosen ⟨snapshot, [snapshot.order]⟩
  | joined {previous : PublicSnapshot} {snapshot : SnapshotRow} (formed : FormsGroup context Chosen previous)
      (chosen : Chosen snapshot) (later : previous.lastOrder ≤ snapshot.order)
      (merges : shouldMergePublicSnapshotGroups context previous ⟨snapshot, [snapshot.order]⟩ = true) :
      FormsGroup context Chosen { previous with orders := previous.orders ++ [snapshot.order] }

variable {groups : List PublicSnapshot} {snapshot : SnapshotRow}

section

variable {context : PublicSnapshotCoalesceContext} {Chosen : SnapshotRow → Prop} {group : PublicSnapshot}

theorem FormsGroup.representative_chosen (formed : FormsGroup context Chosen group) : Chosen group.representative := by
  induction formed with
  | alone chosen => exact chosen
  | joined _ _ _ _ ih => exact ih

/-- A group lies between its representative and its last order. -/
theorem FormsGroup.spans (formed : FormsGroup context Chosen group) :
    group.representative.order ∈ group.orders ∧ group.representative.order ≤ group.lastOrder ∧
      ∀ order ∈ group.orders, group.representative.order ≤ order := by
  induction formed with
  | alone chosen => simp [PublicSnapshot.lastOrder]
  | @joined previous snapshot _ _ later _ ih =>
    obtain ⟨listed, last, above⟩ := ih
    have added := last.trans later
    refine ⟨List.mem_append_left _ listed, ?_, ?_⟩
    · simpa [PublicSnapshot.lastOrder] using added
    · intro order inside
      rcases List.mem_append.mp inside with old | new
      · exact above order old
      · rw [List.mem_singleton.mp new]
        exact added

theorem FormsGroup.mono {Wider : SnapshotRow → Prop} (formed : FormsGroup context Chosen group)
    (wider : ∀ snapshot, Chosen snapshot → Wider snapshot) : FormsGroup context Wider group := by
  induction formed with
  | alone chosen => exact .alone (wider _ chosen)
  | joined _ chosen later merges ih => exact .joined ih (wider _ chosen) later merges

/-- Formed groups, newest first, none of which reaches past the begin of the next one. -/
structure FormsGroups (context : PublicSnapshotCoalesceContext) (Chosen : SnapshotRow → Prop)
    (groups : List PublicSnapshot) : Prop where
  formed : ∀ group ∈ groups, FormsGroup context Chosen group
  ordered : groups.Pairwise fun later earlier => earlier.lastOrder ≤ later.representative.order

theorem coalescePublicSnapshot_forms (forms : FormsGroups context Chosen groups) (chosen : Chosen snapshot)
    (reached : ∀ group ∈ groups, group.lastOrder ≤ snapshot.order) :
    FormsGroups context Chosen (coalescePublicSnapshot context groups snapshot) ∧
      ∀ group ∈ coalescePublicSnapshot context groups snapshot, group.lastOrder ≤ snapshot.order := by
  have alone : FormsGroup context Chosen ⟨snapshot, [snapshot.order]⟩ := .alone chosen
  unfold coalescePublicSnapshot
  cases groups with
  | nil =>
    refine ⟨⟨?_, List.pairwise_singleton _ _⟩, ?_⟩
    · intro group listed
      rw [List.mem_singleton.mp listed]
      exact alone
    · intro group listed
      rw [List.mem_singleton.mp listed]
      exact le_rfl
  | cons previous earlier =>
    have newest := forms.formed previous List.mem_cons_self
    have behind := reached previous List.mem_cons_self
    obtain ⟨before, ordered⟩ := List.pairwise_cons.mp forms.ordered
    dsimp only
    split
    · rename_i merges
      refine ⟨⟨?_, List.pairwise_cons.mpr ⟨before, ordered⟩⟩, ?_⟩
      · intro group listed
        rcases List.mem_cons.mp listed with rfl | later
        · exact .joined newest chosen behind merges
        · exact forms.formed group (List.mem_cons_of_mem _ later)
      · intro group listed
        rcases List.mem_cons.mp listed with rfl | later
        · simp [PublicSnapshot.lastOrder]
        · exact reached group (List.mem_cons_of_mem _ later)
    · refine ⟨⟨?_, List.pairwise_cons.mpr ⟨reached, forms.ordered⟩⟩, ?_⟩
      · intro group listed
        rcases List.mem_cons.mp listed with rfl | later
        · exact alone
        · exact forms.formed group later
      · intro group listed
        rcases List.mem_cons.mp listed with rfl | later
        · exact le_rfl
        · exact reached group later

/-- Snapshots taken by order coalesce to formed groups, oldest first. -/
theorem coalescedPublicSnapshotGroups_forms {snapshots : List SnapshotRow}
    (chosen : ∀ snapshot ∈ snapshots, Chosen snapshot)
    (ordered : snapshots.Pairwise fun earlier later => earlier.order ≤ later.order) :
    (∀ group ∈ coalescedPublicSnapshotGroups context snapshots, FormsGroup context Chosen group) ∧
      (coalescedPublicSnapshotGroups context snapshots).Pairwise fun earlier later =>
        earlier.lastOrder ≤ later.representative.order := by
  suffices following : ∀ groups, FormsGroups context Chosen groups →
      (∀ snapshot ∈ snapshots, ∀ group ∈ groups, group.lastOrder ≤ snapshot.order) →
      FormsGroups context Chosen (snapshots.foldl (coalescePublicSnapshot context) groups) by
    have forms := following [] ⟨by simp, List.Pairwise.nil⟩ (by simp)
    unfold coalescedPublicSnapshotGroups
    refine ⟨?_, List.pairwise_reverse.mpr forms.ordered⟩
    intro group listed
    exact forms.formed group (List.mem_reverse.mp listed)
  induction snapshots with
  | nil => exact fun groups forms _ => forms
  | cons snapshot rest ih =>
    intro groups forms reached
    obtain ⟨ahead, orderedRest⟩ := List.pairwise_cons.mp ordered
    obtain ⟨step, behind⟩ := coalescePublicSnapshot_forms forms (chosen snapshot List.mem_cons_self)
      (reached snapshot List.mem_cons_self)
    refine ih (fun later member => chosen later (List.mem_cons_of_mem _ member)) orderedRest _ step ?_
    intro later member group listed
    exact (behind group listed).trans (ahead later member)

end

/-! ## Counting schema changes -/

/-- The version of a group is the number of schema changes up to its first snapshot, when none falls inside it. -/
theorem schemaVersionsFrom_counts {groups : List PublicSnapshot} {passed ahead : List CatalogOrderId}
    (sorted : (passed ++ ahead).Pairwise (· < ·))
    (ordered : groups.Pairwise fun earlier later => earlier.lastOrder ≤ later.representative.order)
    (begun : ∀ group ∈ groups, ∀ change ∈ passed, change ≤ group.representative.order)
    (spans : ∀ group ∈ groups, group.representative.order ≤ group.lastOrder ∧
      ∀ order ∈ group.orders, group.representative.order ≤ order)
    (apart : ∀ group ∈ groups, ∀ change ∈ ahead, change ≤ group.lastOrder → change ≤ group.representative.order) :
    schemaVersionsFrom passed.length ahead groups = groups.map fun group =>
      ((passed ++ ahead).filter fun change => change ≤ group.representative.order).length := by
  induction groups generalizing passed ahead with
  | nil => rfl
  | cons group rest ih =>
    obtain ⟨behind, orderedRest⟩ := List.pairwise_cons.mp ordered
    obtain ⟨reaches, above⟩ := spans group List.mem_cons_self
    have splits := List.takeWhile_append_dropWhile (p := fun change => decide (change ≤ group.lastOrder)) (l := ahead)
    have early : ∀ change ∈ ahead.takeWhile (fun change => decide (change ≤ group.lastOrder)),
        change ≤ group.representative.order := by
      intro change member
      have passes := List.all_eq_true.mp List.all_takeWhile change member
      exact apart group List.mem_cons_self change (List.takeWhile_sublist _ |>.subset member) (of_decide_eq_true passes)
    have late : ∀ change ∈ ahead.dropWhile (fun change => decide (change ≤ group.lastOrder)), group.lastOrder < change :=
      fun change member => lt_of_mem_dropWhile (List.pairwise_append.mp sorted).2.1 member
    have sortedReached := (List.pairwise_append.mp sorted).2.1.sublist
      (List.takeWhile_sublist fun change => decide (change ≤ group.lastOrder))
    have counted := length_filter_notMem_add sortedReached above early
    unfold schemaVersionsFrom
    generalize ahead.takeWhile (fun change => decide (change ≤ group.lastOrder)) = reached at *
    generalize ahead.dropWhile (fun change => decide (change ≤ group.lastOrder)) = left at *
    obtain rfl : reached ++ left = ahead := splits
    rw [← List.append_assoc] at sorted ⊢
    have version : passed.length + (reached.filter fun change => decide (change ∉ group.orders)).length +
        (if (reached.any fun change => decide (change ∈ group.orders)) = true then 1 else 0) =
          (passed ++ reached).length := by
      rw [List.length_append, ← counted, Nat.add_assoc]
    have following := ih sorted orderedRest ?_ (fun later member => spans later (List.mem_cons_of_mem _ member)) ?_
    · dsimp only
      rw [List.map_cons, version, following, List.cons.injEq]
      refine ⟨?_, rfl⟩
      have counts : ((passed ++ reached) ++ left).filter (fun change => decide (change ≤ group.representative.order)) =
          passed ++ reached := by
        rw [List.filter_append, List.filter_eq_self.mpr, List.filter_eq_nil_iff.mpr, List.append_nil]
        · intro change member passes
          exact absurd ((of_decide_eq_true passes).trans reaches) (not_le.mpr (late change member))
        · intro change member
          refine decide_eq_true ?_
          rcases List.mem_append.mp member with old | new
          · exact begun group List.mem_cons_self change old
          · exact early change new
      rw [counts]
    · intro later member change old
      rcases List.mem_append.mp old with before | new
      · exact begun later (List.mem_cons_of_mem _ member) change before
      · exact (early change new).trans (reaches.trans (behind later member))
    · intro later member change ahead
      exact apart later (List.mem_cons_of_mem _ member) change (List.mem_append_right _ ahead)

/-- The versions of formed groups without a change inside count the changes up to their representatives. -/
theorem publicSchemaVersionsForGroups_counts {context : PublicSnapshotCoalesceContext} {Chosen : SnapshotRow → Prop}
    (formed : ∀ group ∈ groups, FormsGroup context Chosen group)
    (ordered : groups.Pairwise fun earlier later => earlier.lastOrder ≤ later.representative.order)
    (apart : ∀ group, FormsGroup context Chosen group →
      NoSchemaChange context group.representative.order group.lastOrder) :
    publicSchemaVersionsForGroups groups context =
      groups.map fun group => schemaChangesThrough context group.representative.order := by
  refine @schemaVersionsFrom_counts groups [] _ (orderedSet_sorted _) ordered (by simp) ?_ ?_
  · exact fun group member => (formed group member).spans.2
  · intro group member change changes reached
    exact not_lt.mp fun past => apart group (formed group member) change changes past reached

/-! ## Retained snapshots -/

/-- The snapshot is in the timestamp index. -/
def CatalogKv.Keeps (kv : CatalogKv) (snapshot : SnapshotRow) : Prop :=
  ∃ entry ∈ kv.snapshotTimestamp.entries, decodeTimestampSnapshot entry = .ok snapshot

/-- One call of `expire_snapshots` that is accepted. -/
def Expires (kv next : CatalogKv) : Prop :=
  ∃ rawSequences expired, expireSnapshots kv rawSequences = .ok (expired, next)

/-- When listed schema versions are stable: timestamps follow orders, snapshots of one sequence lie between the same
schema changes, and so do the snapshots of every group that some choice of the retained ones coalesces to. -/
structure SchemaChangesApart (kv : CatalogKv) (rows : SnapshotMetadataRows) : Prop where
  timestamps : ∀ earlier later, kv.Keeps earlier → kv.Keeps later → earlier.order < later.order →
    earlier.createdAtMicros ≤ later.createdAtMicros
  sequences : ∀ earlier later, kv.Keeps earlier → kv.Keeps later → earlier.sequence = later.sequence →
    NoSchemaChange (.load kv rows.windows) earlier.order later.order
  groups : ∀ group, FormsGroup (.load kv rows.windows) kv.Keeps group →
    NoSchemaChange (.load kv rows.windows) group.representative.order group.lastOrder

section

variable {kv next : CatalogKv} {rows : SnapshotMetadataRows}

theorem decodeTimestampSnapshot_ok {entry : SnapshotTimestampKey × SnapshotRow}
    (decodes : decodeTimestampSnapshot entry = .ok snapshot) : entry.1 = snapshotTimestampKey snapshot := by
  unfold decodeTimestampSnapshot at decodes
  split at decodes
  · cases decodes
  · rename_i same
    rw [← Except.ok.inj decodes]
    simp [snapshotTimestampKey, not_not.mp same]

variable {payload : ListSnapshotsPayload} {selected : List SnapshotRow}

/-- Whatever a listing selects is retained. -/
theorem selectedSnapshots_keeps
    (selects : selectedSnapshots kv payload = .ok selected) : ∀ snapshot ∈ selected, kv.Keeps snapshot := by
  unfold selectedSnapshots at selects
  simp only [bind_eq_ok, pure_eq_ok] at selects
  obtain ⟨snapshots, lists, rfl⟩ := selects
  intro snapshot member
  have listed := List.mem_of_mem_filter member
  cases bound : payload.olderThanMicros with
  | none =>
    rw [bound] at lists
    simp only [Option.elim_none, listSnapshots, bind_eq_ok, pure_eq_ok] at lists
    obtain ⟨decoded, decodes, rfl⟩ := lists
    obtain ⟨entry, stored, same⟩ := mapM_source decodes ((List.mem_insertionSort _).mp listed)
    exact ⟨entry, stored, same⟩
  | some olderThanMicros =>
    rw [bound] at lists
    simp only [Option.elim_some, listSnapshotsOlderThan] at lists
    obtain ⟨entry, stored, same⟩ := mapM_source lists listed
    exact ⟨entry, (List.takeWhile_sublist _).subset stored, same⟩

/-- A listing selects its snapshots by order when timestamps follow orders. -/
theorem selectedSnapshots_ordered (apart : SchemaChangesApart kv rows)
    (selects : selectedSnapshots kv payload = .ok selected) :
    selected.Pairwise fun earlier later => earlier.order ≤ later.order := by
  unfold selectedSnapshots at selects
  simp only [bind_eq_ok, pure_eq_ok] at selects
  obtain ⟨snapshots, lists, rfl⟩ := selects
  refine List.Pairwise.filter _ ?_
  cases bound : payload.olderThanMicros with
  | none =>
    rw [bound] at lists
    simp only [Option.elim_none, listSnapshots, bind_eq_ok, pure_eq_ok] at lists
    obtain ⟨decoded, _, rfl⟩ := lists
    exact List.pairwise_insertionSort _ _
  | some olderThanMicros =>
    rw [bound] at lists
    simp only [Option.elim_some, listSnapshotsOlderThan] at lists
    refine mapM_pairwise lists (kv.snapshotTimestamp.sorted.sublist (List.takeWhile_sublist _)) ?_
    intro first firstScanned second secondScanned earlier later firstDecodes secondDecodes below
    rw [decodeTimestampSnapshot_ok firstDecodes, decodeTimestampSnapshot_ok secondDecodes] at below
    by_contra behind
    have older := apart.timestamps later earlier ⟨second, (List.takeWhile_sublist _).subset secondScanned, secondDecodes⟩
      ⟨first, (List.takeWhile_sublist _).subset firstScanned, firstDecodes⟩ (not_le.mp behind)
    rcases Prod.Lex.toLex_lt_toLex.mp below with created | ⟨_, order⟩
    · exact absurd created (not_lt.mpr older)
    · exact behind order.le

/-- Every listed version counts the schema changes up to some retained snapshot of the listed id. -/
theorem listSnapshotsPayload_counts (apart : SchemaChangesApart kv rows)
    {listed : List ListedSnapshot} (lists : listSnapshotsPayload kv rows payload = .ok listed) :
    ∀ line ∈ listed, ∃ snapshot, kv.Keeps snapshot ∧ snapshot.sequence = line.snapshotId ∧
      line.schemaVersion = schemaChangesThrough (.load kv rows.windows) snapshot.order := by
  unfold listSnapshotsPayload at lists
  simp only [bind_eq_ok, pure_eq_ok] at lists
  obtain ⟨selected, selects, nextFileId, _, rfl⟩ := lists
  obtain ⟨formed, ordered⟩ := coalescedPublicSnapshotGroups_forms (selectedSnapshots_keeps selects)
    (selectedSnapshots_ordered apart selects)
  rw [publicSchemaVersionsForGroups_counts formed ordered apart.groups, List.zipWith_map_right, List.zipWith_self]
  intro line member
  obtain ⟨group, inside, rfl⟩ := List.mem_map.mp member
  exact ⟨group.representative, (formed group inside).representative_chosen, rfl, rfl⟩

theorem Expires.keeps (expires : Expires kv next) :
    PublicSnapshotCoalesceContext.load next rows.windows = .load kv rows.windows ∧
      ∀ snapshot, next.Keeps snapshot → kv.Keeps snapshot := by
  obtain ⟨rawSequences, expired, accepted⟩ := expires
  unfold expireSnapshots at accepted
  split at accepted
  · obtain ⟨_, rfl⟩ := Prod.mk.inj (Except.ok.inj accepted)
    exact ⟨rfl, fun _ kept => kept⟩
  · simp only [bind_eq_ok, pure_eq_ok, Prod.mk.injEq] at accepted
    obtain ⟨⟨removed, batch⟩, staged, _, rfl⟩ := accepted
    obtain ⟨_, _, _, _, _, _, rfl⟩ := stageExpiredSnapshots_ok staged
    refine ⟨rfl, ?_⟩
    rintro snapshot ⟨⟨key, row⟩, stored, decodes⟩
    have kept := (get?_commit_expiryBatch.mp ((OrderedMap.get?_eq_some_iff _).mpr stored)).1
    exact ⟨(key, row), (OrderedMap.get?_eq_some_iff _).mp kept, decodes⟩

/-- Expiry keeps schema changes apart: it only leaves fewer snapshots to choose from. -/
theorem SchemaChangesApart.expire (apart : SchemaChangesApart kv rows) (expires : Expires kv next) :
    SchemaChangesApart next rows := by
  obtain ⟨context, keeps⟩ := @Expires.keeps kv next rows expires
  constructor
  case timestamps =>
    exact fun earlier later keptEarlier keptLater => apart.timestamps earlier later (keeps _ keptEarlier) (keeps _ keptLater)
  case sequences =>
    rw [context]
    exact fun earlier later keptEarlier keptLater => apart.sequences earlier later (keeps _ keptEarlier) (keeps _ keptLater)
  case groups =>
    rw [context]
    exact fun group formed => apart.groups group (formed.mono keeps)

theorem SchemaChangesApart.expireAll (apart : SchemaChangesApart kv rows)
    (expires : Relation.ReflTransGen Expires kv next) :
    SchemaChangesApart next rows ∧
      PublicSnapshotCoalesceContext.load next rows.windows = .load kv rows.windows ∧
        ∀ snapshot, next.Keeps snapshot → kv.Keeps snapshot := by
  induction expires with
  | refl => exact ⟨apart, rfl, fun _ kept => kept⟩
  | tail _ step ih =>
    obtain ⟨apartThere, context, keeps⟩ := ih
    obtain ⟨sameContext, keepsThere⟩ := @Expires.keeps _ _ rows step
    exact ⟨apartThere.expire step, sameContext.trans context, fun _ kept => keeps _ (keepsThere _ kept)⟩

end

/-- The version listed for an id is the same under every filter, before and after any expiries. -/
def SchemaVersionsStable (kv : CatalogKv) (rows : SnapshotMetadataRows) : Prop :=
  ∀ later, Relation.ReflTransGen Expires kv later → ∀ payload listed relisted,
    listSnapshotsPayload kv rows {} = .ok listed → listSnapshotsPayload later rows payload = .ok relisted →
      ∀ line ∈ listed, ∀ again ∈ relisted, line.snapshotId = again.snapshotId → line.schemaVersion = again.schemaVersion

theorem listedSchemaVersions_stable {kv : CatalogKv} {rows : SnapshotMetadataRows} (apart : SchemaChangesApart kv rows) :
    SchemaVersionsStable kv rows := by
  intro later expires payload listed relisted lists relists line isListed again isRelisted sameId
  obtain ⟨apartLater, context, keeps⟩ := apart.expireAll expires
  obtain ⟨first, keepsFirst, isFirst, countsFirst⟩ := listSnapshotsPayload_counts apart lists line isListed
  obtain ⟨second, keepsSecond, isSecond, countsSecond⟩ := listSnapshotsPayload_counts apartLater relists again isRelisted
  have sameSequence : first.sequence = second.sequence := (isFirst.trans sameId).trans isSecond.symm
  rw [countsFirst, countsSecond, context]
  exact schemaChangesThrough_congr (apart.sequences first second keepsFirst (keeps _ keepsSecond) sameSequence)
    (apart.sequences second first (keeps _ keepsSecond) keepsFirst sameSequence.symm)

/-- Without stored schemas a snapshot of its own sequence joins a group only when it changes no schema itself. -/
theorem shouldMergePublicSnapshotGroups_helper {context : PublicSnapshotCoalesceContext} {previous current : PublicSnapshot}
    (other : previous.representative.sequence ≠ current.representative.sequence)
    (noSchemas : context.metadata.schemas = [])
    (merges : shouldMergePublicSnapshotGroups context previous current = true) :
    context.groupHasMetadataChanges current = false ∨
      context.onlyReplacesTablesWithoutSchemaChange current = true := by
  have notMain : context.onlyCreatesDefaultMainSchema previous = false := by
    simp [PublicSnapshotCoalesceContext.onlyCreatesDefaultMainSchema, noSchemas]
  simp only [shouldMergePublicSnapshotGroups, shouldMergeMetadataGroupsInSameDucklakeCommit,
    shouldMergeMetadataWithCreatedTableGroup, shouldMergeDataWithCreatedTableGroup, shouldMergeSchemaHelperTableGroup,
    other, decide_false, Bool.false_and, Bool.false_or, notMain, Bool.and_false, Bool.or_false, Bool.and_eq_true,
    Bool.or_eq_true, Bool.not_eq_true'] at merges
  exact merges.2

/-- A catalog with one table. -/
def oneTableCreated : CatalogHistory :=
  (CatalogHistory.start 0 0).after (.createTable 5 { tableId := 1, name := "a", validity := ⟨autoOrder, none⟩ })

theorem oneTableCreated_keeps (kept : oneTableCreated.kv.Keeps snapshot) :
    snapshot = SnapshotRow.new 1 0 0 ∨ snapshot = SnapshotRow.new 2 1 5 := by
  obtain ⟨entry, stored, decodes⟩ := kept
  have known : ∀ entry ∈ oneTableCreated.kv.snapshotTimestamp.entries,
      decodeTimestampSnapshot entry = .ok (SnapshotRow.new 1 0 0) ∨
        decodeTimestampSnapshot entry = .ok (SnapshotRow.new 2 1 5) := by decide +kernel
  rcases known entry stored with first | second
  · exact Or.inl (Except.ok.inj (decodes.symm.trans first))
  · exact Or.inr (Except.ok.inj (decodes.symm.trans second))

theorem oneTableCreated_apart : SchemaChangesApart oneTableCreated.kv {} := by
  have changes : ∀ change ∈ catalogSchemaChangeOrders {} (PublicSnapshotCoalesceContext.load oneTableCreated.kv {}).tables,
      change = 2 := by decide +kernel
  -- A group that the first snapshot begins does not reach the table.
  have alone : ∀ group, FormsGroup (.load oneTableCreated.kv {}) oneTableCreated.kv.Keeps group →
      group.representative = SnapshotRow.new 1 0 0 → group.lastOrder = 1 := by
    intro group formed
    induction formed with
    | alone chosen =>
      rintro rfl
      rfl
    | @joined previous snapshot _ chosen _ merges ih =>
      intro first
      rcases oneTableCreated_keeps chosen with rfl | rfl
      · simp [PublicSnapshot.lastOrder, SnapshotRow.new]
      · rcases shouldMergePublicSnapshotGroups_helper (by rw [first]; decide) rfl merges with plain | replaces
        · exact absurd plain (by decide +kernel)
        · exact absurd replaces (by decide +kernel)
  constructor
  case timestamps =>
    intro earlier later keptEarlier keptLater below
    rcases oneTableCreated_keeps keptEarlier with rfl | rfl <;> rcases oneTableCreated_keeps keptLater with rfl | rfl <;>
      first | decide | exact absurd below (by decide)
  case sequences =>
    intro earlier later keptEarlier keptLater same change isChange past reached
    rw [changes change isChange] at past reached
    rcases oneTableCreated_keeps keptEarlier with rfl | rfl <;> rcases oneTableCreated_keeps keptLater with rfl | rfl <;>
      first | exact absurd same (by decide) | exact absurd past (by decide) | exact absurd reached (by decide)
  case groups =>
    intro group formed change isChange past reached
    rw [changes change isChange] at past reached
    rcases oneTableCreated_keeps formed.representative_chosen with first | second
    · rw [alone group formed first] at reached
      exact absurd reached (by decide)
    · rw [second] at past
      exact absurd past (by decide)

/-- The version of the table's snapshot is the same in a listing of that snapshot alone. -/
theorem listedSchemaVersions_stable_oneTableCreated :
    SchemaVersionsStable oneTableCreated.kv {} ∧
      (listSnapshotsPayload oneTableCreated.kv {} { requestedDucklakeIds := some [1] }).toOption.map
        (fun listed => listed.map fun line => (line.snapshotId, line.schemaVersion)) = some [(1, 1)] :=
  ⟨listedSchemaVersions_stable oneTableCreated_apart, by decide +kernel⟩

/-- One transaction creates a table and drops it again at its own sequence, then another one creates a table. -/
def createdAndDropped : CatalogHistory :=
  ((oneTableCreated.afterTable (.dropTables 6 [1] (some 1))).after
    (.createTable 7 { tableId := 2, name := "b", validity := ⟨autoOrder, none⟩ }))

theorem createdAndDropped_reachable : CatalogHistory.TableReachable createdAndDropped :=
  .operation (.tableOperation (.operation (.start 0 0) _) _) _

/-- The transaction counts once while it is listed, and twice when a filter leaves it out. -/
theorem listedSchemaVersions_unstable :
    ¬∀ history, CatalogHistory.TableReachable history → ∀ rows, SchemaVersionsStable history.kv rows := by
  intro stable
  have lists := @eq_ok_getD _ _ (listSnapshotsPayload createdAndDropped.kv {} {}) [] (by decide +kernel)
  have relists := @eq_ok_getD _ _ (listSnapshotsPayload createdAndDropped.kv {} { requestedDucklakeIds := some [2] }) []
    (by decide +kernel)
  have listed : ∃ line ∈ (listSnapshotsPayload createdAndDropped.kv {} {}).toOption.getD [],
      line.snapshotId = 2 ∧ line.schemaVersion = 2 := by decide +kernel
  have relisted : ∃ line ∈ (listSnapshotsPayload createdAndDropped.kv {} { requestedDucklakeIds := some [2] }).toOption.getD [],
      line.snapshotId = 2 ∧ line.schemaVersion = 3 := by decide +kernel
  obtain ⟨line, isListed, lineId, lineVersion⟩ := listed
  obtain ⟨again, isRelisted, againId, againVersion⟩ := relisted
  have same := stable _ createdAndDropped_reachable {} _ .refl _ _ _ lists relists line isListed again isRelisted
    (lineId.trans againId.symm)
  omega

end DucklakeCatalog
