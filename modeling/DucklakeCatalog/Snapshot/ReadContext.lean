import DucklakeCatalog.Snapshot.PublicSequences

namespace DucklakeCatalog

open KeyedStore

/-! ## The groups -/

def PublicSnapshot.lastOrder (group : PublicSnapshot) : CatalogOrderId :=
  group.orders.getLast?.getD group.representative.order

/-- A group stands for snapshots it was built from, one of them its representative. -/
structure PublicSnapshot.BuiltFrom (snapshots : List SnapshotRow) (group : PublicSnapshot) : Prop where
  representative : group.representative ∈ snapshots
  orders : ∀ order ∈ group.orders, ∃ snapshot ∈ snapshots, snapshot.order = order

theorem coalescePublicSnapshot_builtFrom {context : PublicSnapshotCoalesceContext} {groups : List PublicSnapshot}
    {snapshot : SnapshotRow} {snapshots : List SnapshotRow} (member : snapshot ∈ snapshots)
    (built : ∀ group ∈ groups, group.BuiltFrom snapshots) :
    ∀ group ∈ coalescePublicSnapshot context groups snapshot, group.BuiltFrom snapshots := by
  have alone : PublicSnapshot.BuiltFrom snapshots ⟨snapshot, [snapshot.order]⟩ := by
    refine ⟨member, ?_⟩
    intro order listed
    exact ⟨snapshot, member, (List.mem_singleton.mp listed).symm⟩
  unfold coalescePublicSnapshot
  cases groups with
  | nil =>
    intro group listed
    rw [List.mem_singleton.mp listed]
    exact alone
  | cons previous earlier =>
    have before := built previous List.mem_cons_self
    dsimp only
    split
    · intro group listed
      rcases List.mem_cons.mp listed with rfl | later
      · refine ⟨before.representative, ?_⟩
        intro order inside
        rcases List.mem_append.mp inside with old | new
        · exact before.orders order old
        · exact alone.orders order new
      · exact built group (List.mem_cons_of_mem _ later)
    · intro group listed
      rcases List.mem_cons.mp listed with rfl | later
      · exact alone
      · exact built group later

theorem coalescedPublicSnapshotGroups_builtFrom (context : PublicSnapshotCoalesceContext) (snapshots : List SnapshotRow) :
    ∀ group ∈ coalescedPublicSnapshotGroups context snapshots, group.BuiltFrom snapshots := by
  intro group listed
  refine List.foldlRecOn (motive := fun groups : List PublicSnapshot => ∀ group ∈ groups, group.BuiltFrom snapshots)
    snapshots _ (by simp) ?_ group (List.mem_reverse.mp listed)
  intro groups built snapshot member
  exact coalescePublicSnapshot_builtFrom member built

/-! ## The context of a read -/

structure SnapshotReadContext where
  byOrder : OrderedMap CatalogOrderId SnapshotRow := .empty
  byPublicSequence : OrderedMap RawSnapshotSequence SnapshotRow := .empty
  byDucklakeSequence : OrderedMap RawSnapshotSequence SnapshotRow := .empty

namespace SnapshotReadContext

/-- Of the snapshots of one sequence the newest one counts. -/
def insertDucklakeSequence (stored : OrderedMap RawSnapshotSequence SnapshotRow) (snapshot : SnapshotRow) :
    OrderedMap RawSnapshotSequence SnapshotRow :=
  match stored.get? snapshot.sequence with
  | some existing => if existing.order < snapshot.order then stored.insert snapshot.sequence snapshot else stored
  | none => stored.insert snapshot.sequence snapshot

/-- A group is found under the sequence of its representative and reads at its last order. -/
def insertPublicSequence (byOrder : OrderedMap CatalogOrderId SnapshotRow)
    (stored : OrderedMap RawSnapshotSequence SnapshotRow) (group : PublicSnapshot) :
    OrderedMap RawSnapshotSequence SnapshotRow :=
  match byOrder.get? group.lastOrder with
  | some snapshot => stored.insert group.representative.sequence snapshot
  | none => stored

def fromSnapshots (snapshots : List SnapshotRow) (groups : List PublicSnapshot) : SnapshotReadContext :=
  let byOrder := snapshots.foldl (fun stored snapshot => stored.insert snapshot.order snapshot) .empty
  { byOrder
    byPublicSequence := groups.foldl (insertPublicSequence byOrder) .empty
    byDucklakeSequence := snapshots.foldl insertDucklakeSequence .empty }

def load (kv : CatalogKv) (metadata : CatalogMetadata) : CatalogResult SnapshotReadContext := do
  let snapshots ← listSnapshots kv
  return fromSnapshots snapshots (coalescedPublicSnapshotGroups (.load kv metadata) snapshots)

def publicSnapshot (context : SnapshotReadContext) (snapshotId : RawSnapshotSequence) : Option SnapshotRow :=
  context.byPublicSequence.get? snapshotId

def ducklakeSnapshot (context : SnapshotReadContext) (snapshotId : RawSnapshotSequence) : Option SnapshotRow :=
  context.byDucklakeSequence.get? snapshotId

def latestPublicSnapshotId (context : SnapshotReadContext) : Option RawSnapshotSequence :=
  context.byPublicSequence.entries.getLast?.map Prod.fst

end SnapshotReadContext

/-! ## Lookups -/

def snapshotByPublicSequence (kv : CatalogKv) (metadata : CatalogMetadata) (snapshotId : RawSnapshotSequence) :
    CatalogResult (Option SnapshotRow) :=
  match (latestSnapshot kv).filter fun latest => latest.sequence = snapshotId with
  | some latest => .ok (some latest)
  | none => do
    let context ← SnapshotReadContext.load kv metadata
    return context.publicSnapshot snapshotId

/-- A sequence without a raw row is looked for among the retained snapshots. -/
def retainedSnapshotByDucklakeSequence (kv : CatalogKv) (metadata : CatalogMetadata)
    (snapshotId : RawSnapshotSequence) : CatalogResult (Option SnapshotRow) :=
  match (latestSnapshot kv).filter fun latest => latest.sequence = snapshotId with
  | some latest => .ok (some latest)
  | none =>
    match snapshotByRawSequence kv snapshotId with
    | some snapshot => .ok (some snapshot)
    | none => do
      let context ← SnapshotReadContext.load kv metadata
      return context.ducklakeSnapshot snapshotId

inductive InlineStatsRequest
  | conservative
  | exact
  | global
  deriving DecidableEq, Repr

/-- The snapshot an inline read is answered at; an id from the latest one on reads the latest one. -/
def inlineReadSnapshot (kv : CatalogKv) (metadata : CatalogMetadata) (snapshot : Option RawSnapshotSequence)
    (statsRequest : InlineStatsRequest) : CatalogResult (Option SnapshotRow) :=
  match snapshot with
  | none => .ok (latestSnapshot kv)
  | some snapshotId =>
    match (latestSnapshot kv).filter fun latest => latest.sequence ≤ snapshotId with
    | some latest => .ok (some latest)
    | none => do
      let published ← if statsRequest = .global then snapshotByPublicSequence kv metadata snapshotId else .ok none
      match published with
      | some snapshot => return some snapshot
      | none => do
        let snapshot ← retainedSnapshotByDucklakeSequence kv metadata snapshotId
        return snapshot.or (latestSnapshot kv)

inductive CatalogSnapshotIdKind
  | publicSnapshot
  | ducklakeSequence
  deriving DecidableEq, Repr

def missingCatalogSnapshotError (snapshotId : RawSnapshotSequence) : CatalogError :=
  .decode s!"snapshot {snapshotId} does not exist and is not the next commit snapshot"

/-- An id above every public one is taken for the next commit and reads the latest snapshot. -/
def latestOrNextPublicSnapshot (latest : Option SnapshotRow) (snapshots : SnapshotReadContext)
    (snapshotId : RawSnapshotSequence) : Option SnapshotRow := do
  let latestPublicSnapshotId ← snapshots.latestPublicSnapshotId
  let latest ← latest
  if latestPublicSnapshotId < snapshotId then some latest else none

/-- The snapshot a catalog request reads at; its latest snapshot is that of the store it reads. -/
def resolveSnapshot (kv : CatalogKv) (metadata : CatalogMetadata) (snapshotId : RawSnapshotSequence) :
    CatalogSnapshotIdKind → CatalogResult SnapshotRow
  | .publicSnapshot =>
    match (latestSnapshot kv).filter fun latest => latest.sequence = snapshotId with
    | some latest => .ok latest
    | none => do
      let context ← SnapshotReadContext.load kv metadata
      ((context.publicSnapshot snapshotId).or (latestOrNextPublicSnapshot (latestSnapshot kv) context snapshotId)).elim
        (.error (missingCatalogSnapshotError snapshotId)) .ok
  | .ducklakeSequence =>
    match (latestSnapshot kv).filter fun latest => latest.sequence ≤ snapshotId with
    | some latest => .ok latest
    | none =>
      ((snapshotByRawSequence kv snapshotId).or (latestSnapshot kv)).elim
        (.error (missingCatalogSnapshotError snapshotId)) .ok

/-! ## What a context holds -/

section

variable {snapshots : List SnapshotRow} {groups : List PublicSnapshot} {rawSequence : RawSnapshotSequence}

/-- A context knows no public snapshot of a sequence that no retained snapshot has. -/
theorem publicSnapshot_fromSnapshots_eq_none (built : ∀ group ∈ groups, group.BuiltFrom snapshots)
    (absent : ∀ snapshot ∈ snapshots, snapshot.sequence ≠ rawSequence) :
    (SnapshotReadContext.fromSnapshots snapshots groups).publicSnapshot rawSequence = none := by
  simp only [SnapshotReadContext.publicSnapshot, SnapshotReadContext.fromSnapshots]
  generalize snapshots.foldl (fun stored snapshot => OrderedMap.insert stored snapshot.order snapshot) .empty = byOrder
  refine List.foldlRecOn (motive := fun stored : OrderedMap RawSnapshotSequence SnapshotRow =>
    stored.get? rawSequence = none) groups _ (OrderedMap.get?_empty rawSequence) ?_
  intro stored missing group member
  have different : rawSequence ≠ group.representative.sequence :=
    fun same => absent _ (built group member).representative same.symm
  unfold SnapshotReadContext.insertPublicSequence
  split
  · rw [OrderedMap.get?_insert, if_neg different]
    exact missing
  · exact missing

end

/-- No lookup by public id finds a sequence that no retained snapshot has. -/
theorem load_publicSnapshot_eq_none {kv : CatalogKv} {metadata : CatalogMetadata} {context : SnapshotReadContext}
    {rawSequence : RawSnapshotSequence} (loaded : SnapshotReadContext.load kv metadata = .ok context)
    (absent : ∀ snapshots, listSnapshots kv = .ok snapshots → ∀ snapshot ∈ snapshots, snapshot.sequence ≠ rawSequence) :
    context.publicSnapshot rawSequence = none := by
  unfold SnapshotReadContext.load at loaded
  simp only [bind_eq_ok, pure_eq_ok] at loaded
  obtain ⟨snapshots, listed, rfl⟩ := loaded
  exact publicSnapshot_fromSnapshots_eq_none (coalescedPublicSnapshotGroups_builtFrom _ snapshots)
    (absent snapshots listed)

end DucklakeCatalog
