import DucklakeCatalog.Wire.SchemaVersionHistory
import Mathlib.Data.List.Perm.Subperm

namespace DucklakeCatalog.Wire

open ByteCodec KeyedStore

section Lookups

variable {keyLabel : Bytes → String} {catalog : UInt64} {kv : OrderedMap Bytes Bytes} {rows : List (Bytes × UInt64)}

/-- The entry of a row in the store. -/
def historyEntry (catalog : UInt64) (row : Bytes × UInt64) : Bytes × Bytes :=
  (schemaVersionHistoryPrefix catalog ++ row.1, u64Bytes row.2)

theorem historyEntries_sorted (sorted : KeySorted rows) : KeySorted (rows.map (historyEntry catalog)) :=
  List.pairwise_map.mpr (sorted.imp fun below => (append_lt_append_left_iff _ _ _).mpr below)

variable {entry : Bytes × Bytes} {first last : CatalogOrderId} {orders : List CatalogOrderId}

theorem Versions.get?_eq_some_iff (versions : Versions catalog kv rows)
    (tracked : schemaVersionHistoryPrefix catalog <+: entry.1) :
    kv.get? entry.1 = some entry.2 ↔ entry ∈ rows.map (historyEntry catalog) := by
  rw [versions.entries entry.1 entry.2 tracked, List.mem_map]
  constructor
  · rintro ⟨row, member, named, stored⟩
    exact ⟨row, member, Prod.ext named.symm stored.symm⟩
  · rintro ⟨row, member, rfl⟩
    exact ⟨row, member, rfl, rfl⟩

variable {order : CatalogOrderId} {history : List (CatalogOrderId × UInt64)}

/-- The keys before the end of the scan are those of the orders up to the one scanned for. -/
theorem historyKey_lt_scanEnd {row : Bytes × UInt64} (sized : row.1.length = CatalogOrderId.LEN) :
    (historyEntry catalog row).1 < schemaVersionHistoryScanEnd catalog order ↔ row.1 ≤ order.asBytes := by
  rw [historyEntry, schemaVersionHistoryScanEnd, schemaVersionHistoryKey, List.append_assoc,
    append_lt_append_left_iff, lt_append_iff (by simp) (sized.trans order.length_asBytes.symm)]

theorem Versions.mem_range (versions : Versions catalog kv rows) {start : Bytes}
    {direction : RangeDirection} (front : schemaVersionHistoryPrefix catalog ≤ start) :
    entry ∈ kv.range start (schemaVersionHistoryScanEnd catalog order) direction ↔
      ∃ row ∈ rows, entry = historyEntry catalog row ∧ start ≤ entry.1 ∧ row.1 ≤ order.asBytes := by
  rw [OrderedMap.mem_range]
  constructor
  · rintro ⟨found, above, below⟩
    have tracked : schemaVersionHistoryPrefix catalog <+: entry.1 := by
      rw [schemaVersionHistoryScanEnd, schemaVersionHistoryKey, List.append_assoc] at below
      exact prefix_of_between (front.trans above) below
    obtain ⟨row, member, rfl⟩ := List.mem_map.mp ((versions.get?_eq_some_iff tracked).mp found)
    exact ⟨row, member, rfl, above, (historyKey_lt_scanEnd (versions.sized row member)).mp below⟩
  · rintro ⟨row, member, rfl, above, within⟩
    have tracked : schemaVersionHistoryPrefix catalog <+: (historyEntry catalog row).1 := List.prefix_append _ _
    exact ⟨(versions.get?_eq_some_iff tracked).mpr (List.mem_map_of_mem member), above,
      (historyKey_lt_scanEnd (versions.sized row member)).mpr within⟩

theorem le_append_right (front tail : Bytes) : front ≤ front ++ tail := by
  have le := (append_le_append_left_iff front [] tail).mpr (by simp [← not_lt])
  rwa [List.append_nil] at le

section

variable (versions : Versions catalog kv rows)

include versions

theorem Versions.range_upTo (order : CatalogOrderId) :
    kv.range (schemaVersionHistoryPrefix catalog) (schemaVersionHistoryScanEnd catalog order) .forward =
      (begunBy rows order.asBytes).map (historyEntry catalog) := by
  refine List.Pairwise.eq_of_mem_iff (kv.range_sorted _ _ .forward)
    (historyEntries_sorted (versions.sorted.begunBy _)) ?_
  intro entry
  rw [versions.mem_range le_rfl, List.mem_map]
  constructor
  · rintro ⟨row, member, rfl, _, within⟩
    exact ⟨row, mem_begunBy.mpr ⟨member, within⟩, rfl⟩
  · rintro ⟨row, member, rfl⟩
    obtain ⟨listed, within⟩ := mem_begunBy.mp member
    exact ⟨row, listed, rfl, le_append_right _ _, within⟩

theorem Versions.range_since (first last : CatalogOrderId) :
    kv.range (schemaVersionHistoryScanEnd catalog first) (schemaVersionHistoryScanEnd catalog last) .forward =
      (begunSince rows first.asBytes last.asBytes).map (historyEntry catalog) := by
  have front : schemaVersionHistoryPrefix catalog ≤ schemaVersionHistoryScanEnd catalog first := by
    rw [schemaVersionHistoryScanEnd, schemaVersionHistoryKey, List.append_assoc]
    exact le_append_right _ _
  have behind {row : Bytes × UInt64} (member : row ∈ rows) :
      schemaVersionHistoryScanEnd catalog first ≤ (historyEntry catalog row).1 ↔ first.asBytes < row.1 := by
    rw [← not_lt, historyKey_lt_scanEnd (versions.sized row member), not_le]
  refine List.Pairwise.eq_of_mem_iff (kv.range_sorted _ _ .forward)
    (historyEntries_sorted (versions.sorted.begunSince _ _)) ?_
  intro entry
  rw [versions.mem_range front, List.mem_map]
  constructor
  · rintro ⟨row, member, rfl, above, within⟩
    exact ⟨row, mem_begunSince.mpr ⟨member, (behind member).mp above, within⟩, rfl⟩
  · rintro ⟨row, member, rfl⟩
    obtain ⟨listed, after, within⟩ := mem_begunSince.mp member
    exact ⟨row, listed, rfl, (behind listed).mpr after, within⟩

/-- What the reverse read of one row finds. -/
theorem Versions.head?_reverse (order : CatalogOrderId) :
    (scanRange kv (schemaVersionHistoryPrefix catalog) (schemaVersionHistoryScanEnd catalog order) .reverse 1).head? =
      (begunBy rows order.asBytes).getLast?.map (historyEntry catalog) := by
  have reversed : kv.range (schemaVersionHistoryPrefix catalog) (schemaVersionHistoryScanEnd catalog order) .reverse =
      (kv.range (schemaVersionHistoryPrefix catalog) (schemaVersionHistoryScanEnd catalog order) .forward).reverse := rfl
  rw [scanRange, reversed, versions.range_upTo, ← List.map_reverse, List.head?_take, if_neg (by simp),
    List.head?_map, List.head?_reverse]

theorem Versions.loadSchemaVersionAt (order : CatalogOrderId) :
    Wire.loadSchemaVersionAt keyLabel kv catalog order = .ok ((inForce rows order.asBytes).getD 0) := by
  rw [Wire.loadSchemaVersionAt, versions.head?_reverse, inForce]
  cases (begunBy rows order.asBytes).getLast? with
  | none => rfl
  | some row => simp [historyEntry]

end

/-- Rows read back as orders of one kind with their versions. -/
theorem mapM_decodeSchemaHistoryRow (kind : CatalogOrderKind) {rows : List (Bytes × UInt64)}
    (sized : ∀ row ∈ rows, row.1.length = CatalogOrderId.LEN) :
    ∃ history, (rows.map (historyEntry catalog)).mapM
        (decodeSchemaHistoryRow keyLabel (schemaVersionHistoryPrefix catalog) kind) = .ok history ∧
      history.map (fun change => (change.1.asBytes, change.2)) = rows := by
  induction rows with
  | nil => exact ⟨[], rfl, rfl⟩
  | cons row rest ih =>
    obtain ⟨history, decoded, same⟩ := ih fun other member => sized other (List.mem_cons_of_mem _ member)
    have length : row.1.length = CatalogOrderId.LEN := sized row List.mem_cons_self
    refine ⟨(⟨kind, ⟨row.1.toArray, length⟩⟩, row.2) :: history, ?_, ?_⟩
    · have first : decodeSchemaHistoryRow keyLabel (schemaVersionHistoryPrefix catalog) kind (historyEntry catalog row) =
          .ok (⟨kind, ⟨row.1.toArray, length⟩⟩, row.2) := by
        simp [decodeSchemaHistoryRow, historyEntry, length, ok_bind]
      rw [List.map_cons, List.mapM_cons, first, ok_bind, decoded]
      rfl
    · rw [List.map_cons, same]
      rfl

theorem takeWhile_history
    (same : history.map (fun change => (change.1.asBytes, change.2)) = rows) (sorted : KeySorted rows)
    (order : CatalogOrderId) :
    (history.takeWhile fun change => decide (change.1 ≤ order)).map (fun change => (change.1.asBytes, change.2)) =
      begunBy rows order.asBytes := by
  rw [← sorted.takeWhile_eq_begunBy, ← same, List.takeWhile_map]
  rfl

/-- What the batch finds for one of its orders. -/
theorem resolved_eq
    (sorted : KeySorted rows) (above : first.asBytes ≤ order.asBytes) (below : order.asBytes ≤ last.asBytes)
    (same : history.map (fun change => (change.1.asBytes, change.2)) =
      begunSince rows first.asBytes last.asBytes) :
    (if partitionPoint history order = 0 then (inForce rows first.asBytes).getD 0
      else (history[partitionPoint history order - 1]?.map Prod.snd).getD ((inForce rows first.asBytes).getD 0)) =
      (inForce rows order.asBytes).getD 0 := by
  have taken := takeWhile_history same (sorted.begunSince _ _) order
  rw [begunBy_begunSince below] at taken
  have lasts : (history.takeWhile fun change => decide (change.1 ≤ order)).getLast?.map Prod.snd =
      (begunSince rows first.asBytes order.asBytes).getLast?.map Prod.snd := by
    rw [← taken, List.getLast?_map, Option.map_map]
    rfl
  rw [partitionPoint, getElem?_takeWhile_length, sorted.inForce_since above, ← lasts]
  cases (history.takeWhile fun change => decide (change.1 ≤ order)).getLast? with
  | none => rfl
  | some change => rfl

theorem resolveSchemaVersionReads_ok {rest : List CatalogOrderId} (several : rest ≠ [])
    {before middle : List (Bytes × Bytes)} {current : UInt64}
    (found : (before.head?.elim (.ok 0) fun item => decodeSchemaVersion keyLabel item.1 item.2) = .ok current)
    (decoded : middle.mapM (decodeSchemaHistoryRow keyLabel (schemaVersionHistoryPrefix catalog) first.kind) =
      .ok history) :
    resolveSchemaVersionReads keyLabel catalog (first :: rest) [before, middle] =
      .ok ((first :: rest).map fun order => (order,
        if partitionPoint history order = 0 then current
        else (history[partitionPoint history order - 1]?.map Prod.snd).getD current)) := by
  simp only [resolveSchemaVersionReads, List.length_singleton, if_neg several, ne_eq, not_true_eq_false, if_false,
    List.head?_cons, Option.getD_some, found, decoded, Except.mapError, ok_bind]

/-- No order of a set is past its last one. -/
theorem le_of_mem_sorted (sorted : orders.Pairwise (· < ·))
    (ends : orders.getLast? = some last) (member : order ∈ orders) : order.asBytes ≤ last.asBytes := by
  obtain ⟨front, rfl⟩ := List.getLast?_eq_some_iff.mp ends
  rcases List.mem_append.mp member with earlier | own
  · exact le_of_lt ((List.pairwise_append.mp sorted).2.2 order earlier last (List.mem_singleton_self _))
  · rw [List.mem_singleton.mp own]

/-- The batch agrees with the single reads. -/
theorem Versions.loadSchemaVersionsAt (versions : Versions catalog kv rows) (counted : kv.entries.length ≤ u64Max)
    (sorted : orders.Pairwise (· < ·)) :
    Wire.loadSchemaVersionsAt keyLabel kv catalog orders =
      .ok (orders.map fun order => (order, (inForce rows order.asBytes).getD 0)) := by
  match orders with
  | [] => rfl
  | [order] =>
    rw [Wire.loadSchemaVersionsAt, versions.loadSchemaVersionAt]
    rfl
  | first :: second :: rest =>
    obtain ⟨last, ends⟩ := Option.isSome_iff_exists.mp (List.getLast?_isSome.mpr (List.cons_ne_nil second rest))
    have endsWhole : (first :: second :: rest).getLast? = some last := by rw [List.getLast?_cons, ends]; rfl
    have middle : scanRange kv (schemaVersionHistoryScanEnd catalog first) (schemaVersionHistoryScanEnd catalog last)
        .forward u64Max =
          (begunSince rows first.asBytes last.asBytes).map
            (historyEntry catalog) := by
      rw [scanRange, List.take_of_length_le ((kv.length_range_le _ _ _).trans counted), versions.range_since]
    obtain ⟨history, decoded, same⟩ := @mapM_decodeSchemaHistoryRow keyLabel catalog first.kind
      (begunSince rows first.asBytes last.asBytes)
      fun row member => versions.sized row (mem_begunSince.mp member).1
    have current : ((scanRange kv (schemaVersionHistoryPrefix catalog) (schemaVersionHistoryScanEnd catalog first)
        .reverse 1).head?.elim (.ok 0) fun item => decodeSchemaVersion keyLabel item.1 item.2) =
          .ok ((inForce rows first.asBytes).getD 0) := by
      have single := @Versions.loadSchemaVersionAt keyLabel catalog kv rows versions first
      rw [Wire.loadSchemaVersionAt] at single
      rw [← single]
      cases (scanRange kv (schemaVersionHistoryPrefix catalog) (schemaVersionHistoryScanEnd catalog first)
        .reverse 1).head? <;> rfl
    have ranges : (schemaVersionReadRanges catalog (first :: second :: rest)).map (fun range =>
        scanRange kv range.start range.stop range.direction range.limit) =
        [scanRange kv (schemaVersionHistoryPrefix catalog) (schemaVersionHistoryScanEnd catalog first) .reverse 1,
          (begunSince rows first.asBytes last.asBytes).map
            (historyEntry catalog)] := by
      simp only [schemaVersionReadRanges, ends, List.map_cons, List.map_nil, middle]
    rw [Wire.loadSchemaVersionsAt, ranges, resolveSchemaVersionReads_ok (List.cons_ne_nil _ _) current decoded]
    · refine congrArg Except.ok (List.map_congr_left ?_)
      intro order member
      have above : first.asBytes ≤ order.asBytes := by
        rcases List.mem_cons.mp member with rfl | later
        · exact le_rfl
        · exact le_of_lt ((List.pairwise_cons.mp sorted).1 order later)
      rw [resolved_eq versions.sorted above (le_of_mem_sorted sorted endsWhole member) same]
    · nofun
    · nofun

/-- The version at an order counts the rows up to it. -/
theorem Versions.toNat_inForce (versions : Versions catalog kv rows) (counted : kv.entries.length ≤ u64Max)
    (point : Bytes) :
    ((inForce rows point).getD 0).toNat = (begunBy rows point).length := by
  have distinct : (rows.map (historyEntry catalog)).Nodup :=
    (historyEntries_sorted versions.sorted).imp fun below => ne_of_apply_ne Prod.fst below.ne
  have stored : rows.map (historyEntry catalog) ⊆ kv.entries := by
    intro entry member
    have tracked : schemaVersionHistoryPrefix catalog <+: entry.1 := by
      obtain ⟨row, _, rfl⟩ := List.mem_map.mp member
      exact List.prefix_append _ _
    exact (OrderedMap.get?_eq_some_iff _).mp ((versions.get?_eq_some_iff tracked).mpr member)
  have few : (begunBy rows point).length ≤ u64Max := by
    have inStore := (distinct.subperm stored).length_le
    rw [List.length_map] at inStore
    exact (List.length_filter_le _ _).trans (inStore.trans counted)
  rw [versions.sorted.inForce_numbered versions.numbered point]
  split_ifs with none
  · rw [none]
    rfl
  · exact toNat_versionNumber few

end Lookups

/-- Looked up together or one by one, outside of any request, the version at each order is
the number of schema changes committed up to it. -/
theorem loadSchemaVersions_agree (keyLabel : Bytes → String) (catalog : UInt64) (store : CountedMap Bytes Bytes u64Max)
    {changes : List CatalogOrderId} (history : SchemaHistory keyLabel catalog store.map changes)
    (requested : CatalogOrderSet) :
    ∃ version : CatalogOrderId → UInt64,
      loadSchemaVersionsAt keyLabel store.map catalog requested.orders =
          .ok (requested.orders.map fun order => (order, version order)) ∧
        ∀ order, loadSchemaVersionAt keyLabel store.map catalog order = .ok (version order) ∧
          (version order).toNat = (changes.filter fun change => change ≤ order).length := by
  obtain ⟨rows, versions, named⟩ := history.versions
  refine ⟨fun order => (inForce rows order.asBytes).getD 0, ?_, ?_⟩
  · exact versions.loadSchemaVersionsAt store.counted requested.sorted
  · intro order
    refine ⟨versions.loadSchemaVersionAt order, ?_⟩
    rw [versions.toNat_inForce store.counted]
    calc (begunBy rows order.asBytes).length
      _ = (rows.map Prod.fst).countP fun change => decide (change ≤ order.asBytes) := by
        rw [begunBy, ← List.countP_eq_length_filter, List.countP_map]
        rfl
      _ = (changes.filter fun change => change ≤ order).length := by
        rw [named, List.countP_map, List.countP_eq_length_filter]
        rfl

/-- The batch of the first schema change of catalog 1, at the zero order. -/
def firstSchemaChange : Staged Bytes Bytes :=
  (stageNextSchemaVersion (fun _ => "<invalid-key>") .empty 1 {} .zero 0).toOption.getD {}

theorem firstSchemaChange_history :
    SchemaHistory (fun _ => "<invalid-key>") 1 (OrderedMap.empty.commit firstSchemaChange) [.zero] := by
  change SchemaHistory _ _ _ ([] ++ [CatalogOrderId.zero])
  refine .stages (.begins rfl fun _ _ => rfl) ?_ (by simp) rfl
  rintro key (written | deleted)
  · exact absurd written Staged.not_writes_empty
  · cases deleted

theorem loadSchemaVersions_agree_firstSchemaChange :
    ∃ version : CatalogOrderId → UInt64,
      loadSchemaVersionsAt (fun _ => "<invalid-key>") (OrderedMap.empty.commit firstSchemaChange) 1 [.zero] =
          .ok [(.zero, version .zero)] ∧
        (version .zero).toNat = 1 := by
  obtain ⟨version, batch, single⟩ := loadSchemaVersions_agree (fun _ => "<invalid-key>") 1
    ⟨OrderedMap.empty.commit firstSchemaChange, by decide⟩ firstSchemaChange_history
    ⟨[.zero], List.pairwise_singleton _ _⟩
  refine ⟨version, batch, (single .zero).2.trans ?_⟩
  simp [CatalogOrderId.le_iff]

end DucklakeCatalog.Wire
