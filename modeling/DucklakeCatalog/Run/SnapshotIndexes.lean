import DucklakeCatalog.Run.CatalogSteps
import DucklakeCatalog.Run.InlineMaps

namespace DucklakeCatalog

open KeyedStore

/-! ## Expiry -/

def snapshotTimestampKey (snapshot : SnapshotRow) : SnapshotTimestampKey :=
  ⟨snapshot.createdAtMicros, snapshot.order⟩

/-- Takes the snapshots out of the timestamp index. -/
def expiryBatch (expired : List SnapshotRow) : KvBatch where
  snapshotTimestamp := ({} : Staged SnapshotTimestampKey SnapshotRow).deleteAll (expired.map snapshotTimestampKey)

theorem foldl_stageDeleteSnapshot (earlier selected : List SnapshotRow) :
    selected.foldl stageDeleteSnapshot (expiryBatch earlier) = expiryBatch (earlier ++ selected) := by
  induction selected generalizing earlier with
  | nil => simp
  | cons snapshot rest ih =>
    have step : stageDeleteSnapshot (expiryBatch earlier) snapshot = expiryBatch (earlier ++ [snapshot]) := by
      unfold expiryBatch
      rw [List.map_append, Staged.deleteAll_append]
      rfl
    rw [List.foldl_cons, step, ih, List.append_assoc]
    rfl

def snapshotsOfSequences (snapshots : List SnapshotRow) (rawSequences : List RawSnapshotSequence) : List SnapshotRow :=
  rawSequences.flatMap fun rawSequence => snapshots.filter fun snapshot => snapshot.sequence = rawSequence

variable {latest snapshot : SnapshotRow} {snapshots expired : List SnapshotRow}

theorem stageExpireSnapshots_ok {rawSequences : List RawSnapshotSequence} {batch : KvBatch}
    (staged : stageExpireSnapshots latest snapshots rawSequences = .ok (expired, batch)) :
    latest.sequence ∉ rawSequences ∧ expired = snapshotsOfSequences snapshots rawSequences ∧
      batch = expiryBatch expired := by
  unfold stageExpireSnapshots at staged
  have opening : ([], {}) = (([], expiryBatch []) : List SnapshotRow × KvBatch) := rfl
  rw [opening] at staged
  rw [← List.nil_append (snapshotsOfSequences snapshots rawSequences)]
  generalize ([] : List SnapshotRow) = earlier at staged ⊢
  induction rawSequences generalizing earlier with
  | nil =>
    simp only [List.foldlM_nil, pure_eq_ok, Prod.mk.injEq] at staged
    obtain ⟨rfl, rfl⟩ := staged
    simp [snapshotsOfSequences]
  | cons rawSequence rest ih =>
    rw [List.foldlM_cons, bind_eq_ok] at staged
    obtain ⟨next, taken, staged⟩ := staged
    by_cases isNewest : rawSequence = latest.sequence
    · simp [isNewest] at taken
    · simp only [if_neg isNewest, Except.ok.injEq, foldl_stageDeleteSnapshot] at taken
      subst taken
      obtain ⟨notRest, isExpired, same⟩ := ih _ staged
      refine ⟨?_, ?_, same⟩
      · rw [List.mem_cons, not_or]
        exact ⟨fun same => isNewest same.symm, notRest⟩
      · rw [isExpired, List.append_assoc]
        rfl

/-- Expiry removes the retained snapshots of the asked sequences from the timestamp index, never the latest one. -/
theorem stageExpiredSnapshots_ok {kv : CatalogKv} {rawSequences : List RawSnapshotSequence} {batch : KvBatch}
    (staged : stageExpiredSnapshots kv rawSequences = .ok (expired, batch)) :
    ∃ latest snapshots, latestSnapshot kv = some latest ∧ listSnapshots kv = .ok snapshots ∧
      latest.sequence ∉ rawSequences ∧ expired = snapshotsOfSequences snapshots rawSequences ∧
      batch = expiryBatch expired := by
  unfold stageExpiredSnapshots at staged
  simp only [bind_eq_ok] at staged
  obtain ⟨latest, isLatest, snapshots, listed, staged⟩ := staged
  have found : latestSnapshot kv = some latest := by
    cases stored : latestSnapshot kv with
    | none => simp [stored] at isLatest
    | some snapshot => simpa [stored] using isLatest
  exact ⟨latest, snapshots, found, listed, stageExpireSnapshots_ok staged⟩

/-! ## What a step does to the snapshots -/

/-- The snapshot rows of a store in all their places. -/
def CatalogKv.snapshotMaps (kv : CatalogKv) :=
  ((kv.snapshot, kv.snapshotTimestamp), (kv.latestSnapshotRow, kv.rawSnapshotRow))

inductive SnapshotEffect (kv : CatalogKv) : CatalogKv → Prop
  | untouched (order : kv.nextOrder ≤ next.nextOrder) (same : next.snapshotMaps = kv.snapshotMaps) :
      SnapshotEffect kv next
  | committed (snapshot : SnapshotRow) (order : snapshot.order = kv.generatedOrderId)
      (continues : ContinuesSequence (latestSnapshot kv) snapshot.sequence)
      (draws : next.nextOrder = kv.nextOrder + 1)
      (places : next.snapshotMaps = ((kv.snapshot.insert snapshot.order snapshot,
        kv.snapshotTimestamp.insert (snapshotTimestampKey snapshot) snapshot),
        (kv.latestSnapshotRow.insert () snapshot, kv.rawSnapshotRow.insert snapshot.sequence snapshot))) :
      SnapshotEffect kv next
  | expired (staged : stageExpiredSnapshots kv rawSequences = .ok (removed, batch)) :
      SnapshotEffect kv (kv.commit batch)

section

variable {kv next : CatalogKv} {batch : KvBatch}

theorem CatalogKv.snapshotMaps_commit (kv : CatalogKv) (batch : KvBatch) : (kv.commit batch).snapshotMaps =
    ((kv.snapshot.commit batch.snapshot, kv.snapshotTimestamp.commit batch.snapshotTimestamp),
      (kv.latestSnapshotRow.commit batch.latestSnapshotRow, kv.rawSnapshotRow.commit batch.rawSnapshotRow)) := rfl

/-- A batch that stages a snapshot puts it in all four places. -/
theorem snapshotMaps_commit_stageSnapshot (same : batch.snapshotMaps = (stageSnapshot {} snapshot).snapshotMaps) :
    (kv.commit batch).snapshotMaps = ((kv.snapshot.insert snapshot.order snapshot,
      kv.snapshotTimestamp.insert (snapshotTimestampKey snapshot) snapshot),
      (kv.latestSnapshotRow.insert () snapshot, kv.rawSnapshotRow.insert snapshot.sequence snapshot)) := by
  simp only [KvBatch.snapshotMaps, KvBatch.snapshotRows, stageSnapshot, Prod.mk.injEq] at same
  obtain ⟨⟨rows, timestamps⟩, latest, raw⟩ := same
  rw [CatalogKv.snapshotMaps_commit, rows, timestamps, latest, raw]
  simp only [OrderedMap.commit_put, OrderedMap.commit_empty]
  rfl

theorem snapshotMaps_commit_of_empty (same : batch.snapshotMaps = ({} : KvBatch).snapshotMaps) :
    (kv.commit batch).snapshotMaps = kv.snapshotMaps := by
  simp only [KvBatch.snapshotMaps, KvBatch.snapshotRows, Prod.mk.injEq] at same
  obtain ⟨⟨rows, timestamps⟩, latest, raw⟩ := same
  rw [CatalogKv.snapshotMaps_commit, rows, timestamps, latest, raw]
  simp only [OrderedMap.commit_empty]
  rfl

theorem stageRemoveOldInlineTablePayloads_snapshotMaps {inlineIds : List InlineTableCleanupId}
    {rows : List InlineTableCleanupRow} (staged : stageRemoveOldInlineTablePayloads kv inlineIds = .ok (rows, batch)) :
    batch.snapshotMaps = ({} : KvBatch).snapshotMaps := by
  unfold stageRemoveOldInlineTablePayloads at staged
  simp only [bind_eq_ok, pure_eq_ok, Prod.mk.injEq] at staged
  obtain ⟨listed, _, _, rfl⟩ := staged
  rw [foldl_view KvBatch.snapshotMaps ?_ _ _, foldl_view KvBatch.snapshotMaps ?_ _ _]
  · intro state id
    rfl
  · intro state key
    unfold stageRemoveCoveredWatermark
    dsimp only
    split
    · rfl
    · rfl

/-- Every step leaves the snapshots alone, adds the one it drew an order for, or expires some. -/
theorem CatalogStep.Leaves.snapshotEffect {step : CatalogStep} (leaves : CatalogStep.Leaves kv step next) :
    SnapshotEffect kv next := by
  cases leaves with
  | unchanged => exact .untouched le_rfl rfl
  | drawn => exact .untouched (Nat.le_succ _) rfl
  | @committed operation batch commits =>
    obtain ⟨snapshot, order, continues, same⟩ := commits.snapshotMaps
    exact .committed snapshot order continues rfl (snapshotMaps_commit_stageSnapshot same)
  | @maintained operation batch maintains =>
    rcases maintains.commitMaps with ⟨_, _, _, staged⟩ | same
    · exact .expired staged
    · exact .untouched le_rfl (snapshotMaps_commit_of_empty (snapshotMaps_congr same))
  | @deletedAtNewSnapshot now metadata tableId schemaId deletedRowIds commitSnapshot latest target staged deletes draws =>
    obtain ⟨_, _, _, same⟩ := stageInlineDeletes_changes deletes.stages
    have targets := deletes.targets
    unfold inlineDeleteTarget at targets
    split at targets
    · rw [← targets] at draws
      simp at draws
    · refine .committed target.snapshot (by rw [← targets]; rfl) ?_ rfl ?_
      · left
        rw [deletes.isLatest, ← targets]
        rfl
      · refine snapshotMaps_commit_stageSnapshot ?_
        rw [same]
        rfl
  | deletedAtSnapshot deletes =>
    obtain ⟨_, _, _, same⟩ := stageInlineDeletes_changes deletes.stages
    refine .untouched le_rfl (snapshotMaps_commit_of_empty ?_)
    rw [same]
    rfl
  | removedPayloads staged =>
    exact .untouched le_rfl (snapshotMaps_commit_of_empty (stageRemoveOldInlineTablePayloads_snapshotMaps staged))

end

/-! ## What holds of the snapshots in every run -/

/-- The places a snapshot is stored in agree, and sequences follow orders. -/
structure SnapshotIndexes (kv : CatalogKv) : Prop where
  keyed : ∀ order row, kv.snapshot.get? order = some row → row.order = order
  retained : ∀ key row, kv.snapshotTimestamp.get? key = some row →
    key = snapshotTimestampKey row ∧ kv.snapshot.get? row.order = some row
  raw : ∀ rawSequence row, kv.rawSnapshotRow.get? rawSequence = some row →
    row.sequence = rawSequence ∧ kv.snapshot.get? row.order = some row
  sequenced : ∀ order row, kv.snapshot.get? order = some row →
    ∃ last, kv.rawSnapshotRow.get? row.sequence = some last ∧ order ≤ last.order
  newest : ∃ latest, latestSnapshot kv = some latest ∧ latest.order ≤ kv.nextOrder ∧
    kv.snapshotTimestamp.get? (snapshotTimestampKey latest) = some latest ∧
    ∀ order row, kv.snapshot.get? order = some row → order ≤ latest.order ∧ row.sequence ≤ latest.sequence
  follows : ∀ first second earlier later, kv.snapshot.get? first = some earlier → kv.snapshot.get? second = some later →
    first ≤ second → earlier.sequence ≤ later.sequence

section

variable {kv next : CatalogKv} {batch : KvBatch}

theorem SnapshotIndexes.of_same (indexes : SnapshotIndexes kv) (order : kv.nextOrder ≤ next.nextOrder)
    (same : next.snapshotMaps = kv.snapshotMaps) : SnapshotIndexes next := by
  simp only [CatalogKv.snapshotMaps, Prod.mk.injEq] at same
  obtain ⟨⟨rows, timestamps⟩, latest, raw⟩ := same
  obtain ⟨newest, isNewest, drawn, active, bounds⟩ := indexes.newest
  constructor
  case keyed => rw [rows]; exact indexes.keyed
  case retained => rw [rows, timestamps]; exact indexes.retained
  case raw => rw [rows, raw]; exact indexes.raw
  case sequenced => rw [rows, raw]; exact indexes.sequenced
  case follows => rw [rows]; exact indexes.follows
  case newest =>
    rw [latestSnapshot, latest, rows, timestamps]
    exact ⟨newest, isNewest, drawn.trans order, active, bounds⟩

/-- The latest sequence does not fall when a commit continues it. -/
theorem ContinuesSequence.le {rawSequence : RawSnapshotSequence}
    (continues : ContinuesSequence (some latest) rawSequence) : latest.sequence ≤ rawSequence := by
  rcases continues with fresh | ⟨snapshot, same, reused⟩
  · rw [fresh]
    exact Nat.le_succ _
  · rw [reused, Option.some.inj same]

theorem SnapshotIndexes.commit (indexes : SnapshotIndexes kv)
    (order : snapshot.order = kv.generatedOrderId) (continues : ContinuesSequence (latestSnapshot kv) snapshot.sequence)
    (draws : next.nextOrder = kv.nextOrder + 1)
    (places : next.snapshotMaps = ((kv.snapshot.insert snapshot.order snapshot,
      kv.snapshotTimestamp.insert (snapshotTimestampKey snapshot) snapshot),
      (kv.latestSnapshotRow.insert () snapshot, kv.rawSnapshotRow.insert snapshot.sequence snapshot))) :
    SnapshotIndexes next := by
  simp only [CatalogKv.snapshotMaps, Prod.mk.injEq] at places
  obtain ⟨⟨rows, timestamps⟩, latestRow, raw⟩ := places
  obtain ⟨latest, isLatest, drawn, _, bounds⟩ := indexes.newest
  rw [isLatest] at continues
  have grows := continues.le
  have isNext : snapshot.order = kv.nextOrder + 1 := order
  -- No stored snapshot has the order that was drawn.
  have older : ∀ storedOrder row, kv.snapshot.get? storedOrder = some row → storedOrder < snapshot.order := by
    intro storedOrder row stored
    rw [isNext]
    exact Nat.lt_succ_of_le ((bounds storedOrder row stored).1.trans drawn)
  have kept : ∀ storedOrder row, kv.snapshot.get? storedOrder = some row →
      (kv.snapshot.insert snapshot.order snapshot).get? storedOrder = some row := by
    intro storedOrder row stored
    rw [OrderedMap.get?_insert, if_neg (older storedOrder row stored).ne]
    exact stored
  constructor
  case keyed =>
    intro storedOrder row stored
    rw [rows, OrderedMap.get?_insert] at stored
    split at stored
    · rename_i same
      rw [← Option.some.inj stored, same]
    · exact indexes.keyed storedOrder row stored
  case retained =>
    intro key row stored
    rw [timestamps, OrderedMap.get?_insert] at stored
    rw [rows]
    split at stored
    · rename_i same
      rw [← Option.some.inj stored, OrderedMap.get?_insert_self]
      exact ⟨same, rfl⟩
    · obtain ⟨named, found⟩ := indexes.retained key row stored
      exact ⟨named, kept _ _ found⟩
  case raw =>
    intro rawSequence row stored
    rw [raw, OrderedMap.get?_insert] at stored
    rw [rows]
    split at stored
    · rename_i same
      rw [← Option.some.inj stored, OrderedMap.get?_insert_self]
      exact ⟨same.symm, rfl⟩
    · obtain ⟨named, found⟩ := indexes.raw rawSequence row stored
      exact ⟨named, kept _ _ found⟩
  case sequenced =>
    intro storedOrder row stored
    rw [rows, OrderedMap.get?_insert] at stored
    rw [raw]
    by_cases isNew : storedOrder = snapshot.order
    · rw [if_pos isNew, Option.some.injEq] at stored
      subst stored
      exact ⟨snapshot, OrderedMap.get?_insert_self .., isNew.le⟩
    · rw [if_neg isNew] at stored
      by_cases sameSequence : row.sequence = snapshot.sequence
      · rw [sameSequence]
        exact ⟨snapshot, OrderedMap.get?_insert_self .., (older storedOrder row stored).le⟩
      · rw [OrderedMap.get?_insert, if_neg sameSequence]
        exact indexes.sequenced storedOrder row stored
  case newest =>
    refine ⟨snapshot, ?_, ?_, ?_, ?_⟩
    · rw [latestSnapshot, latestRow, OrderedMap.get?_insert_self]
    · rw [isNext, draws]
    · rw [timestamps, OrderedMap.get?_insert_self]
    · intro storedOrder row stored
      rw [rows, OrderedMap.get?_insert] at stored
      by_cases isNew : storedOrder = snapshot.order
      · rw [if_pos isNew, Option.some.injEq] at stored
        rw [← stored]
        exact ⟨isNew.le, le_rfl⟩
      · rw [if_neg isNew] at stored
        exact ⟨(older storedOrder row stored).le, (bounds storedOrder row stored).2.trans grows⟩
  case follows =>
    intro first second earlier later firstStored secondStored ordered
    rw [rows, OrderedMap.get?_insert] at firstStored secondStored
    by_cases secondNew : second = snapshot.order
    · rw [if_pos secondNew, Option.some.injEq] at secondStored
      subst secondStored
      by_cases firstNew : first = snapshot.order
      · rw [if_pos firstNew, Option.some.injEq] at firstStored
        rw [firstStored]
      · rw [if_neg firstNew] at firstStored
        exact (bounds first earlier firstStored).2.trans grows
    · rw [if_neg secondNew] at secondStored
      have secondOlder := older second later secondStored
      rw [if_neg (ordered.trans_lt secondOlder).ne] at firstStored
      exact indexes.follows first second earlier later firstStored secondStored ordered

variable {row : SnapshotRow}

/-- Which snapshots an expiry leaves in the timestamp index. -/
theorem get?_commit_expiryBatch {key : SnapshotTimestampKey} :
    (kv.commit (expiryBatch expired)).snapshotTimestamp.get? key = some row ↔
      kv.snapshotTimestamp.get? key = some row ∧ key ∉ expired.map snapshotTimestampKey :=
  OrderedMap.get?_commit_deleteAll kv.snapshotTimestamp (expired.map snapshotTimestampKey)

section

variable (indexes : SnapshotIndexes kv)

include indexes

/-- The retained snapshots are those in the timestamp index. -/
theorem SnapshotIndexes.mem_listSnapshots (listed : listSnapshots kv = .ok snapshots) :
    row ∈ snapshots ↔ kv.snapshotTimestamp.get? (snapshotTimestampKey row) = some row := by
  unfold listSnapshots at listed
  simp only [bind_eq_ok, pure_eq_ok] at listed
  obtain ⟨rows, decoded, rfl⟩ := listed
  rw [List.mem_insertionSort]
  have decodes : ∀ key stored, kv.snapshotTimestamp.get? key = some stored →
      decodeTimestampSnapshot (key, stored) = .ok stored := by
    intro key stored found
    obtain ⟨rfl, _⟩ := indexes.retained key stored found
    simp [decodeTimestampSnapshot, snapshotTimestampKey]
  constructor
  · intro member
    obtain ⟨⟨key, stored⟩, entry, same⟩ := mapM_source decoded member
    have found := (OrderedMap.get?_eq_some_iff _).mpr entry
    rw [decodes key stored found, Except.ok.injEq] at same
    subst same
    rw [← (indexes.retained key stored found).1]
    exact found
  · intro found
    obtain ⟨decodedRow, member, same⟩ := mapM_accepts decoded ((OrderedMap.get?_eq_some_iff _).mp found)
    rw [decodes _ row found, Except.ok.injEq] at same
    rwa [same]

theorem SnapshotIndexes.listSnapshots_ok : ∃ snapshots, listSnapshots kv = .ok snapshots := by
  have decodes : ∃ rows, kv.snapshotTimestamp.entries.mapM decodeTimestampSnapshot = .ok rows := by
    refine ⟨kv.snapshotTimestamp.entries.map Prod.snd, ?_⟩
    rw [mapM_eq_ok_iff]
    rw [List.forall₂_map_right_iff, List.forall₂_same]
    rintro ⟨key, stored⟩ entry
    obtain ⟨rfl, _⟩ := indexes.retained key stored ((OrderedMap.get?_eq_some_iff _).mpr entry)
    simp [decodeTimestampSnapshot, snapshotTimestampKey]
  obtain ⟨rows, decoded⟩ := decodes
  exact ⟨_, by rw [listSnapshots, decoded]; rfl⟩

theorem SnapshotIndexes.expire {rawSequences : List RawSnapshotSequence}
    {expired : List SnapshotRow} (staged : stageExpiredSnapshots kv rawSequences = .ok (expired, batch)) :
    SnapshotIndexes (kv.commit batch) := by
  obtain ⟨latest, snapshots, isLatest, listed, notExpired, isExpired, rfl⟩ := stageExpiredSnapshots_ok staged
  obtain ⟨newest, isNewest, drawn, active, bounds⟩ := indexes.newest
  obtain rfl : latest = newest := Option.some.inj (isLatest.symm.trans isNewest)
  constructor
  case keyed => exact indexes.keyed
  case retained =>
    intro key row stored
    exact indexes.retained key row (get?_commit_expiryBatch.mp stored).1
  case raw => exact indexes.raw
  case sequenced => exact indexes.sequenced
  case follows => exact indexes.follows
  case newest =>
    refine ⟨latest, isNewest, drawn, get?_commit_expiryBatch.mpr ⟨active, ?_⟩, bounds⟩
    intro removed
    obtain ⟨row, member, sameKey⟩ := List.mem_map.mp removed
    rw [isExpired] at member
    obtain ⟨rawSequence, asked, selected⟩ := List.mem_flatMap.mp member
    obtain ⟨inside, sequence⟩ := List.mem_filter.mp selected
    have stored := (indexes.mem_listSnapshots listed).mp inside
    rw [sameKey] at stored
    obtain rfl : latest = row := Option.some.inj (active.symm.trans stored)
    exact notExpired ((of_decide_eq_true sequence) ▸ asked)

theorem SnapshotIndexes.effect (effect : SnapshotEffect kv next) :
    SnapshotIndexes next := by
  cases effect with
  | untouched order same => exact indexes.of_same order same
  | committed snapshot order continues draws places => exact indexes.commit order continues draws places
  | expired staged => exact indexes.expire staged

end

theorem SnapshotIndexes.start (lastOrder : CatalogOrderId) (now : Int) :
    SnapshotIndexes (CatalogHistory.start lastOrder now).kv := by
  have first (order : CatalogOrderId) (row : SnapshotRow) :
      (CatalogHistory.start lastOrder now).kv.snapshot.get? order = some row ↔
        order = lastOrder + 1 ∧ SnapshotRow.new (lastOrder + 1) 0 now = row := by
    have only : (CatalogHistory.start lastOrder now).kv.snapshot =
        OrderedMap.empty.insert (lastOrder + 1) (SnapshotRow.new (lastOrder + 1) 0 now) := rfl
    rw [only, OrderedMap.get?_insert]
    by_cases same : order = lastOrder + 1
    · simp [same]
    · simp [same]
  constructor
  case keyed =>
    intro order row stored
    obtain ⟨rfl, rfl⟩ := (first order row).mp stored
    rfl
  case retained =>
    intro key row stored
    have only : (CatalogHistory.start lastOrder now).kv.snapshotTimestamp =
        OrderedMap.empty.insert ⟨now, lastOrder + 1⟩ (SnapshotRow.new (lastOrder + 1) 0 now) := rfl
    rw [only, OrderedMap.get?_insert] at stored
    split at stored
    · rename_i same
      obtain rfl := Option.some.inj stored
      exact ⟨same, (first _ _).mpr ⟨rfl, rfl⟩⟩
    · simp at stored
  case raw =>
    intro rawSequence row stored
    have only : (CatalogHistory.start lastOrder now).kv.rawSnapshotRow =
        OrderedMap.empty.insert 0 (SnapshotRow.new (lastOrder + 1) 0 now) := rfl
    rw [only, OrderedMap.get?_insert] at stored
    split at stored
    · rename_i same
      obtain rfl := Option.some.inj stored
      exact ⟨same.symm, (first _ _).mpr ⟨rfl, rfl⟩⟩
    · simp at stored
  case sequenced =>
    intro order row stored
    obtain ⟨rfl, rfl⟩ := (first order row).mp stored
    exact ⟨SnapshotRow.new (lastOrder + 1) 0 now, OrderedMap.get?_insert_self .., le_rfl⟩
  case newest =>
    refine ⟨SnapshotRow.new (lastOrder + 1) 0 now, OrderedMap.get?_insert_self .., le_rfl,
      OrderedMap.get?_insert_self .., ?_⟩
    intro order row stored
    obtain ⟨rfl, rfl⟩ := (first order row).mp stored
    exact ⟨le_rfl, le_rfl⟩
  case follows =>
    intro first' second' earlier later firstStored secondStored _
    obtain ⟨_, rfl⟩ := (first first' earlier).mp firstStored
    obtain ⟨_, rfl⟩ := (first second' later).mp secondStored
    exact le_rfl

theorem CatalogKv.Reachable.snapshotIndexes (reachable : kv.Reachable) : SnapshotIndexes kv :=
  reachable.invariant SnapshotIndexes SnapshotIndexes.start fun _ _ _ indexes leaves =>
    indexes.effect leaves.snapshotEffect

end

end DucklakeCatalog
