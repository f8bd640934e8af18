import DucklakeCatalog.ByteCodec.KeyOrder
import DucklakeCatalog.ByteCodec.Readers
import DucklakeCatalog.KeyedStore.Batch
import DucklakeCatalog.KeyedStore.InForce
import DucklakeCatalog.KeyedStore.RangeScan
import DucklakeCatalog.Wire.VersionstampedKeys

/-! The versions of the public schema, and the orders at which each of them began. -/
namespace DucklakeCatalog.Wire

open ByteCodec KeyedStore

/-! ## Orders -/

/-- Orders compare by their bytes, whatever their kind. -/
instance : LT CatalogOrderId := ⟨fun left right => left.asBytes < right.asBytes⟩

instance : LE CatalogOrderId := ⟨fun left right => left.asBytes ≤ right.asBytes⟩

instance (left right : CatalogOrderId) : Decidable (left < right) :=
  inferInstanceAs (Decidable (left.asBytes < right.asBytes))

instance (left right : CatalogOrderId) : Decidable (left ≤ right) :=
  inferInstanceAs (Decidable (left.asBytes ≤ right.asBytes))

theorem CatalogOrderId.lt_iff {left right : CatalogOrderId} : left < right ↔ left.asBytes < right.asBytes := Iff.rfl

theorem CatalogOrderId.le_iff {left right : CatalogOrderId} : left ≤ right ↔ left.asBytes ≤ right.asBytes := Iff.rfl

/-- An ordered set of orders. -/
structure CatalogOrderSet where
  orders : List CatalogOrderId
  sorted : orders.Pairwise (· < ·)

/-! ## Keys -/

def currentSchemaVersionKey (catalog : UInt64) : Bytes :=
  familyPrefix catalog .metadataVersion ++ utf8 "current-schema-version"

def schemaVersionHistoryScanEnd (catalog : UInt64) (order : CatalogOrderId) : Bytes :=
  schemaVersionHistoryKey catalog order ++ [255]

def schemaVersionBeginSnapshotKey (catalog schemaVersion : UInt64) : Bytes :=
  familyPrefix catalog .metadataVersion ++ utf8 "schema-version-begin-snapshot/" ++ u64Bytes schemaVersion

def catalogSnapshotVersionKey (catalog : UInt64) : Bytes :=
  familyPrefix catalog .metadataVersion ++ utf8 "catalog-snapshot-version"

/-! ## Reading versions -/

inductive SchemaVersionError where
  | backend (message : String)
  | catalog (error : CatalogError)

structure CatalogReadRange where
  start : Bytes
  stop : Bytes
  direction : RangeDirection
  limit : Nat

section Versions

-- `keyLabel` is how an error shows a key.
variable (keyLabel : Bytes → String) (kv : OrderedMap Bytes Bytes) (catalog : UInt64)

def decodeSchemaVersion (key value : Bytes) : CatalogResult UInt64 :=
  if value.length = 8 then .ok (UInt64.ofNat (beNumber value))
  else .error (.invalidKey s!"invalid current schema version value for key {keyLabel key}")

def scanRange (start stop : Bytes) (direction : RangeDirection) (limit : Nat) : List (Bytes × Bytes) :=
  (kv.range start stop direction).take limit

/-- The read outside of any request that keeps the values it has read. -/
def loadSchemaVersionAt (order : CatalogOrderId) : CatalogResult UInt64 :=
  match (scanRange kv (schemaVersionHistoryPrefix catalog) (schemaVersionHistoryScanEnd catalog order) .reverse 1).head?
  with
  | none => .ok 0
  | some item => decodeSchemaVersion keyLabel item.1 item.2

def schemaVersionReadRanges (orders : List CatalogOrderId) : List CatalogReadRange :=
  match orders with
  | [] => []
  | first :: rest =>
    let boundary := schemaVersionHistoryScanEnd catalog first
    ⟨schemaVersionHistoryPrefix catalog, boundary, .reverse, 1⟩ ::
      match rest.getLast? with
      | none => []
      | some last => [⟨boundary, schemaVersionHistoryScanEnd catalog last, .forward, u64Max⟩]

def decodeSchemaHistoryRow (front : Bytes) (kind : CatalogOrderKind) (item : Bytes × Bytes) :
    CatalogResult (CatalogOrderId × UInt64) :=
  if front <+: item.1 then
    let tail := item.1.drop front.length
    if sized : tail.length = CatalogOrderId.LEN then do
      let version ← decodeSchemaVersion keyLabel item.1 item.2
      .ok (⟨kind, ⟨tail.toArray, sized⟩⟩, version)
    else .error (.invalidKey "schema version history order has wrong length")
  else .error (.invalidKey "schema version history key has wrong prefix")

/-- How many rows from the front began at the order or before it. -/
def partitionPoint (history : List (CatalogOrderId × UInt64)) (order : CatalogOrderId) : Nat :=
  (history.takeWhile fun change => decide (change.1 ≤ order)).length

def resolveSchemaVersionReads (orders : List CatalogOrderId) (ranges : List (List (Bytes × Bytes))) :
    Except SchemaVersionError (List (CatalogOrderId × UInt64)) :=
  match orders with
  | [] => .ok []
  | first :: rest =>
    match ranges with
    | before :: later =>
      if later.length ≠ (if rest = [] then 0 else 1) then
        .error (.backend "schema version read set has wrong range count")
      else do
        let current ← (before.head?.elim (.ok 0) fun item => decodeSchemaVersion keyLabel item.1 item.2).mapError
          SchemaVersionError.catalog
        let history ← ((later.head?.getD []).mapM (decodeSchemaHistoryRow keyLabel
          (schemaVersionHistoryPrefix catalog) first.kind)).mapError SchemaVersionError.catalog
        .ok (orders.map fun order =>
          let stop := partitionPoint history order
          (order, if stop = 0 then current else (history[stop - 1]?.map Prod.snd).getD current))
    | [] => .error (.backend "schema version read set has wrong range count")

def loadSchemaVersionsAt (orders : List CatalogOrderId) :
    Except SchemaVersionError (List (CatalogOrderId × UInt64)) :=
  match orders with
  | [] => .ok []
  | [order] => ((loadSchemaVersionAt keyLabel kv catalog order).map fun version => [(order, version)]).mapError
      SchemaVersionError.catalog
  | orders =>
    let ranges := (schemaVersionReadRanges catalog orders).map fun range =>
      scanRange kv range.start range.stop range.direction range.limit
    resolveSchemaVersionReads keyLabel catalog orders ranges

/-! ## Writing versions -/

def loadSchemaVersion (key : Bytes) : CatalogResult (Option UInt64) :=
  match kv.get? key with
  | none => .ok none
  | some value => (decodeSchemaVersion keyLabel key value).map some

/-- `u64::saturating_add` of one. -/
def nextVersion (version : UInt64) : UInt64 := UInt64.ofNat (saturatingAdd version.toNat 1)

def stageNextCatalogSnapshotVersion (batch : Staged Bytes Bytes) : CatalogResult (Staged Bytes Bytes) := do
  let current ← loadSchemaVersion keyLabel kv (catalogSnapshotVersionKey catalog)
  .ok (batch.put (catalogSnapshotVersionKey catalog) (u64Bytes (nextVersion (current.getD 0))))

/-- The next version begins at the order and the sequence of the snapshot being committed. -/
def stageNextSchemaVersion (batch : Staged Bytes Bytes) (order : CatalogOrderId) (sequence : UInt64) :
    CatalogResult (Staged Bytes Bytes) := do
  let current ← loadSchemaVersion keyLabel kv (currentSchemaVersionKey catalog)
  let next := nextVersion (current.getD 0)
  let batch := batch.put (currentSchemaVersionKey catalog) (u64Bytes next)
  let batch := batch.put (schemaVersionHistoryKey catalog order) (u64Bytes next)
  let batch := batch.put (schemaVersionBeginSnapshotKey catalog next) (u64Bytes sequence)
  stageNextCatalogSnapshotVersion keyLabel kv catalog batch

end Versions

/-! ## Histories -/

/-- The batch leaves the current version and the history alone. -/
def Elsewhere (catalog : UInt64) (batch : Staged Bytes Bytes) : Prop :=
  ∀ key, batch.Writes key ∨ key ∈ batch.deletes →
    key ≠ currentSchemaVersionKey catalog ∧ ¬ schemaVersionHistoryPrefix catalog <+: key

/-- Stores whose versions were all staged at increasing orders, which are listed, with any
other commits in between. -/
inductive SchemaHistory (keyLabel : Bytes → String) (catalog : UInt64) :
    OrderedMap Bytes Bytes → List CatalogOrderId → Prop
  | begins {kv : OrderedMap Bytes Bytes} (noVersion : kv.get? (currentSchemaVersionKey catalog) = none)
      (noHistory : ∀ key, schemaVersionHistoryPrefix catalog <+: key → kv.get? key = none) :
      SchemaHistory keyLabel catalog kv []
  | stages {kv : OrderedMap Bytes Bytes} {orders : List CatalogOrderId} {batch staged : Staged Bytes Bytes}
      {order : CatalogOrderId} {sequence : UInt64} (earlier : SchemaHistory keyLabel catalog kv orders)
      (elsewhere : Elsewhere catalog batch) (later : ∀ previous ∈ orders, previous < order)
      (accepted : stageNextSchemaVersion keyLabel kv catalog batch order sequence = .ok staged) :
      SchemaHistory keyLabel catalog (kv.commit staged) (orders ++ [order])
  | writes {kv : OrderedMap Bytes Bytes} {orders : List CatalogOrderId} {batch : Staged Bytes Bytes}
      (earlier : SchemaHistory keyLabel catalog kv orders) (elsewhere : Elsewhere catalog batch) :
      SchemaHistory keyLabel catalog (kv.commit batch) orders

/-- Version `count` as its key holds it. -/
def versionNumber (count : Nat) : UInt64 := UInt64.ofNat (min count u64Max)

theorem toNat_versionNumber {count : Nat} (fits : count ≤ u64Max) : (versionNumber count).toNat = count := by
  rw [versionNumber, min_eq_left fits]
  exact UInt64.toNat_ofNat_of_lt' (Nat.lt_of_le_pred (by decide) fits)

theorem nextVersion_versionNumber (count : Nat) : nextVersion (versionNumber count) = versionNumber (count + 1) := by
  have small : min count u64Max < UInt64.size := Nat.lt_of_le_pred (by decide) (min_le_right _ _)
  rw [nextVersion, versionNumber, versionNumber, UInt64.toNat_ofNat_of_lt' small, saturatingAdd]
  congr 1
  omega

@[simp] theorem decodeSchemaVersion_u64Bytes (keyLabel : Bytes → String) (key : Bytes) (version : UInt64) :
    decodeSchemaVersion keyLabel key (u64Bytes version) = .ok version := by
  rw [decodeSchemaVersion, if_pos (length_u64Bytes version), u64Bytes,
    beNumber_beBytes (by exact version.toNat_lt), UInt64.ofNat_toNat]

/-- The history entries and the current version, as rows of orders and versions. -/
structure Versions (catalog : UInt64) (kv : OrderedMap Bytes Bytes) (rows : List (Bytes × UInt64)) : Prop where
  current : kv.get? (currentSchemaVersionKey catalog) = rows.getLast?.map fun row => u64Bytes row.2
  entries : ∀ key value, schemaVersionHistoryPrefix catalog <+: key →
    (kv.get? key = some value ↔
      ∃ row ∈ rows, key = schemaVersionHistoryPrefix catalog ++ row.1 ∧ value = u64Bytes row.2)
  sorted : KeySorted rows
  sized : ∀ row ∈ rows, row.1.length = CatalogOrderId.LEN
  numbered : rows.map Prod.snd = (List.range rows.length).map fun index => versionNumber (index + 1)

section Keys

variable (catalog : UInt64)

theorem currentSchemaVersionKey_elsewhere :
    ¬ schemaVersionHistoryPrefix catalog <+: currentSchemaVersionKey catalog := by
  rw [schemaVersionHistoryPrefix, currentSchemaVersionKey, List.prefix_append_right_inj]
  decide

theorem catalogSnapshotVersionKey_elsewhere :
    catalogSnapshotVersionKey catalog ≠ currentSchemaVersionKey catalog ∧
      ¬ schemaVersionHistoryPrefix catalog <+: catalogSnapshotVersionKey catalog := by
  rw [schemaVersionHistoryPrefix, catalogSnapshotVersionKey, currentSchemaVersionKey, List.prefix_append_right_inj,
    ne_eq, List.append_cancel_left_eq]
  exact ⟨by decide, by decide⟩

theorem schemaVersionBeginSnapshotKey_elsewhere (schemaVersion : UInt64) :
    schemaVersionBeginSnapshotKey catalog schemaVersion ≠ currentSchemaVersionKey catalog ∧
      ¬ schemaVersionHistoryPrefix catalog <+: schemaVersionBeginSnapshotKey catalog schemaVersion := by
  rw [schemaVersionHistoryPrefix, schemaVersionBeginSnapshotKey, currentSchemaVersionKey, List.append_assoc,
    List.prefix_append_right_inj, ne_eq, List.append_cancel_left_eq]
  constructor
  · intro same
    have starts : utf8 "schema-version-begin-snapshot/" <+: utf8 "current-schema-version" := ⟨_, same⟩
    exact absurd starts (by decide)
  · intro starts
    have shorter : utf8 "schema-version-history/" <+: utf8 "schema-version-begin-snapshot/" :=
      List.prefix_of_prefix_length_le starts (List.prefix_append _ _) (by decide)
    exact absurd shorter (by decide)

end Keys

section Steps

variable {keyLabel : Bytes → String} {catalog : UInt64} {kv : OrderedMap Bytes Bytes} {rows : List (Bytes × UInt64)}

theorem Elsewhere.get?_commit {batch : Staged Bytes Bytes} (elsewhere : Elsewhere catalog batch) {key : Bytes}
    (tracked : key = currentSchemaVersionKey catalog ∨ schemaVersionHistoryPrefix catalog <+: key) :
    (kv.commit batch).get? key = kv.get? key := by
  refine OrderedMap.get?_commit_of_untouched kv batch key ?_ ?_
  · intro written
    obtain ⟨other, outside⟩ := elsewhere key (Or.inl written)
    exact tracked.elim other outside
  · intro deleted
    obtain ⟨other, outside⟩ := elsewhere key (Or.inr deleted)
    exact tracked.elim other outside

theorem Versions.writes {batch : Staged Bytes Bytes} (versions : Versions catalog kv rows)
    (elsewhere : Elsewhere catalog batch) : Versions catalog (kv.commit batch) rows where
  current := (elsewhere.get?_commit (Or.inl rfl)).trans versions.current
  entries key value tracked := by
    rw [elsewhere.get?_commit (Or.inr tracked)]
    exact versions.entries key value tracked
  sorted := versions.sorted
  sized := versions.sized
  numbered := versions.numbered

/-- The version that is current counts the rows. -/
theorem Versions.loadSchemaVersion (versions : Versions catalog kv rows) :
    ∃ current, Wire.loadSchemaVersion keyLabel kv (currentSchemaVersionKey catalog) = .ok current ∧
      current.getD 0 = versionNumber rows.length := by
  rw [Wire.loadSchemaVersion, versions.current]
  cases last : rows.getLast? with
  | none =>
    refine ⟨none, rfl, ?_⟩
    rw [List.getLast?_eq_none_iff.mp last]
    rfl
  | some row =>
    obtain ⟨front, same⟩ := List.getLast?_eq_some_iff.mp last
    have value : (rows.map Prod.snd)[front.length]? = some row.2 := by simp [same]
    rw [versions.numbered, List.getElem?_map, List.getElem?_range (by simp [same])] at value
    have numberOf : versionNumber (front.length + 1) = row.2 := by simpa using value
    refine ⟨some row.2, by simp [Except.map], ?_⟩
    simp [same, numberOf]

/-- A staged version adds its row behind the earlier ones. -/
theorem Versions.stages {batch staged : Staged Bytes Bytes} {order : CatalogOrderId} {sequence : UInt64}
    (versions : Versions catalog kv rows) (elsewhere : Elsewhere catalog batch)
    (later : ∀ row ∈ rows, row.1 < order.asBytes)
    (accepted : stageNextSchemaVersion keyLabel kv catalog batch order sequence = .ok staged) :
    Versions catalog (kv.commit staged) (rows ++ [(order.asBytes, versionNumber (rows.length + 1))]) := by
  obtain ⟨current, loads, number⟩ := @Versions.loadSchemaVersion keyLabel catalog kv rows versions
  simp only [stageNextSchemaVersion, stageNextCatalogSnapshotVersion, loads, ok_bind, number,
    nextVersion_versionNumber] at accepted
  rw [bind_eq_ok] at accepted
  obtain ⟨snapshotVersion, _, same⟩ := accepted
  obtain rfl := Except.ok.inj same
  have notHistory : currentSchemaVersionKey catalog ≠ schemaVersionHistoryKey catalog order := by
    intro equal
    exact currentSchemaVersionKey_elsewhere catalog (equal ▸ List.prefix_append _ _)
  obtain ⟨otherSnapshot, outsideSnapshot⟩ := catalogSnapshotVersionKey_elsewhere catalog
  obtain ⟨otherBegin, outsideBegin⟩ :=
    schemaVersionBeginSnapshotKey_elsewhere catalog (versionNumber (rows.length + 1))
  refine ⟨?_, ?_, ?_, ?_, ?_⟩
  · simp only [OrderedMap.commit_put]
    rw [OrderedMap.get?_insert_ne _ _ otherSnapshot.symm, OrderedMap.get?_insert_ne _ _ otherBegin.symm,
      OrderedMap.get?_insert_ne _ _ notHistory, OrderedMap.get?_insert_self, List.getLast?_concat]
    rfl
  · intro key value tracked
    have notSnapshot : key ≠ catalogSnapshotVersionKey catalog := fun equal => outsideSnapshot (equal ▸ tracked)
    have notBegin : key ≠ schemaVersionBeginSnapshotKey catalog (versionNumber (rows.length + 1)) :=
      fun equal => outsideBegin (equal ▸ tracked)
    have notCurrent : key ≠ currentSchemaVersionKey catalog :=
      fun equal => currentSchemaVersionKey_elsewhere catalog (equal ▸ tracked)
    simp only [OrderedMap.commit_put]
    rw [OrderedMap.get?_insert_ne _ _ notSnapshot, OrderedMap.get?_insert_ne _ _ notBegin, OrderedMap.get?_insert]
    by_cases new : key = schemaVersionHistoryKey catalog order
    · rw [if_pos new]
      constructor
      · intro found
        exact ⟨_, List.mem_append_right _ (List.mem_singleton_self _), new, (Option.some.inj found).symm⟩
      · rintro ⟨row, member, named, rfl⟩
        rcases List.mem_append.mp member with old | own
        · have equal : row.1 = order.asBytes := List.append_cancel_left (named.symm.trans new)
          exact absurd equal (later row old).ne
        · rw [List.mem_singleton.mp own]
    · rw [if_neg new, OrderedMap.get?_insert_ne _ _ notCurrent, elsewhere.get?_commit (Or.inr tracked),
        versions.entries key value tracked]
      constructor
      · rintro ⟨row, member, named, stored⟩
        exact ⟨row, List.mem_append_left _ member, named, stored⟩
      · rintro ⟨row, member, named, stored⟩
        rcases List.mem_append.mp member with old | own
        · exact ⟨row, old, named, stored⟩
        · rw [List.mem_singleton.mp own] at named
          exact absurd named new
  · refine List.pairwise_append.mpr ⟨versions.sorted, List.pairwise_singleton _ _, ?_⟩
    intro row member other own
    rw [List.mem_singleton.mp own]
    exact later row member
  · intro row member
    rcases List.mem_append.mp member with old | own
    · exact versions.sized row old
    · rw [List.mem_singleton.mp own]
      exact order.length_asBytes
  · rw [List.map_append, versions.numbered, List.length_append, List.length_singleton, List.range_succ,
      List.map_append]
    rfl

end Steps

/-- The rows of a history are those of its orders, numbered from one. -/
theorem SchemaHistory.versions {keyLabel : Bytes → String} {catalog : UInt64} {kv : OrderedMap Bytes Bytes}
    {orders : List CatalogOrderId} (history : SchemaHistory keyLabel catalog kv orders) :
    ∃ rows, Versions catalog kv rows ∧ rows.map Prod.fst = orders.map CatalogOrderId.asBytes := by
  induction history with
  | begins noVersion noHistory =>
    refine ⟨[], ⟨noVersion, ?_, List.Pairwise.nil, by simp, rfl⟩, rfl⟩
    intro key value tracked
    simp [noHistory key tracked]
  | stages _ elsewhere later accepted ih =>
    obtain ⟨rows, versions, named⟩ := ih
    refine ⟨_, versions.stages elsewhere ?_ accepted, ?_⟩
    · intro row member
      have listed : row.1 ∈ rows.map Prod.fst := List.mem_map_of_mem member
      rw [named] at listed
      obtain ⟨previous, earlier, same⟩ := List.mem_map.mp listed
      exact same ▸ later previous earlier
    · rw [List.map_append, List.map_append, named]
      rfl
  | writes _ elsewhere ih =>
    obtain ⟨rows, versions, named⟩ := ih
    exact ⟨rows, versions.writes elsewhere, named⟩

end DucklakeCatalog.Wire
