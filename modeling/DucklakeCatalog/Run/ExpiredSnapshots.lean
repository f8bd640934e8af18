import DucklakeCatalog.Run.SnapshotIndexes
import DucklakeCatalog.Snapshot.ReadContext

namespace DucklakeCatalog

open KeyedStore

/-- No retained snapshot has the sequence, its raw row is still stored, and later sequences are in use. -/
structure ExpiredSequence (kv : CatalogKv) (rawSequence : RawSnapshotSequence) (row : SnapshotRow) : Prop where
  absent : ∀ key snapshot, kv.snapshotTimestamp.get? key = some snapshot → snapshot.sequence ≠ rawSequence
  raw : snapshotByRawSequence kv rawSequence = some row
  passed : ∃ latest, latestSnapshot kv = some latest ∧ rawSequence < latest.sequence

section

variable {kv next later : CatalogKv} {rawSequence : RawSnapshotSequence} {row : SnapshotRow}

theorem ExpiredSequence.effect (expired : ExpiredSequence kv rawSequence row) (effect : SnapshotEffect kv next) :
    ExpiredSequence next rawSequence row := by
  cases effect with
  | untouched _ same =>
    simp only [CatalogKv.snapshotMaps, Prod.mk.injEq] at same
    obtain ⟨⟨_, timestamps⟩, latest, raw⟩ := same
    constructor
    case absent => rw [timestamps]; exact expired.absent
    case raw => rw [snapshotByRawSequence, raw]; exact expired.raw
    case passed => rw [latestSnapshot, latest]; exact expired.passed
  | committed snapshot _ continues _ places =>
    simp only [CatalogKv.snapshotMaps, Prod.mk.injEq] at places
    obtain ⟨⟨_, timestamps⟩, latestRow, raw⟩ := places
    obtain ⟨latest, isLatest, passed⟩ := expired.passed
    rw [isLatest] at continues
    have above : rawSequence < snapshot.sequence := passed.trans_le continues.le
    constructor
    case absent =>
      intro key stored found
      rw [timestamps, OrderedMap.get?_insert] at found
      split at found
      · rw [← Option.some.inj found]
        exact above.ne'
      · exact expired.absent key stored found
    case raw =>
      rw [snapshotByRawSequence, raw, OrderedMap.get?_insert, if_neg above.ne]
      exact expired.raw
    case passed =>
      refine ⟨snapshot, ?_, above⟩
      rw [latestSnapshot, latestRow, OrderedMap.get?_insert_self]
  | expired staged =>
    obtain ⟨_, _, _, _, _, _, rfl⟩ := stageExpiredSnapshots_ok staged
    refine ⟨?_, expired.raw, expired.passed⟩
    intro key snapshot found
    exact expired.absent key snapshot (get?_commit_expiryBatch.mp found).1

theorem ExpiredSequence.reaches (expired : ExpiredSequence kv rawSequence row) (reaches : kv.Reaches later) :
    ExpiredSequence later rawSequence row := by
  refine reaches.invariant (fun store => ExpiredSequence store rawSequence row) ?_ expired
  intro store step following holds leaves
  exact holds.effect leaves.snapshotEffect

/-- Expiry leaves every sequence it expired without a retained snapshot. -/
theorem expiredSequence_expireSnapshots (indexes : SnapshotIndexes kv) {rawSequences : List RawSnapshotSequence}
    {expired : List SnapshotRow} {snapshot : SnapshotRow}
    (expires : expireSnapshots kv rawSequences = .ok (expired, next)) (member : snapshot ∈ expired) :
    ∃ last, last.sequence = snapshot.sequence ∧ snapshot.order ≤ last.order ∧
      ExpiredSequence next snapshot.sequence last := by
  unfold expireSnapshots at expires
  by_cases nothing : rawSequences = []
  · rw [if_pos nothing, Except.ok.injEq, Prod.mk.injEq] at expires
    rw [← expires.1] at member
    exact absurd member List.not_mem_nil
  · rw [if_neg nothing] at expires
    simp only [bind_eq_ok, pure_eq_ok, Prod.mk.injEq] at expires
    obtain ⟨⟨removed, batch⟩, staged, rfl, rfl⟩ := expires
    obtain ⟨latest, snapshots, isLatest, listed, notExpired, isExpired, rfl⟩ := stageExpiredSnapshots_ok staged
    obtain ⟨newest, isNewest, _, _, bounds⟩ := indexes.newest
    obtain rfl : latest = newest := Option.some.inj (isLatest.symm.trans isNewest)
    rw [isExpired] at member
    obtain ⟨asked, isAsked, selected⟩ := List.mem_flatMap.mp member
    obtain ⟨inside, sequence⟩ := List.mem_filter.mp selected
    obtain rfl : snapshot.sequence = asked := of_decide_eq_true sequence
    have active := (indexes.mem_listSnapshots listed).mp inside
    have stored := (indexes.retained _ _ active).2
    obtain ⟨last, raw, newer⟩ := indexes.sequenced _ _ stored
    refine ⟨last, (indexes.raw _ _ raw).1, newer, ?_, raw, latest, isLatest, ?_⟩
    · intro key other found sameSequence
      obtain ⟨before, kept⟩ := get?_commit_expiryBatch.mp found
      obtain ⟨rfl, _⟩ := indexes.retained key other before
      refine kept (List.mem_map_of_mem ?_)
      rw [isExpired]
      refine List.mem_flatMap.mpr ⟨snapshot.sequence, isAsked, List.mem_filter.mpr ⟨?_, decide_eq_true sameSequence⟩⟩
      exact (indexes.mem_listSnapshots listed).mpr before
    · refine lt_of_le_of_ne (bounds _ _ stored).2 ?_
      intro same
      exact notExpired (same ▸ isAsked)

theorem SnapshotIndexes.load_ok (indexes : SnapshotIndexes kv) (metadata : CatalogMetadata) :
    ∃ context, SnapshotReadContext.load kv metadata = .ok context := by
  obtain ⟨snapshots, listed⟩ := indexes.listSnapshots_ok
  exact ⟨_, by rw [SnapshotReadContext.load, listed]; rfl⟩

namespace ExpiredSequence

variable {metadata : CatalogMetadata} (expired : ExpiredSequence kv rawSequence row)

include expired

theorem latest_filter_eq :
    ((latestSnapshot kv).filter fun latest => latest.sequence = rawSequence) = none := by
  obtain ⟨latest, isLatest, passed⟩ := expired.passed
  rw [isLatest, Option.filter_some, if_neg (by simpa using passed.ne')]

theorem latest_filter_le :
    ((latestSnapshot kv).filter fun latest => latest.sequence ≤ rawSequence) = none := by
  obtain ⟨latest, isLatest, passed⟩ := expired.passed
  rw [isLatest, Option.filter_some, if_neg (by simpa using passed)]

theorem absent_listed (indexes : SnapshotIndexes kv)
    (snapshots : List SnapshotRow) (listed : listSnapshots kv = .ok snapshots) :
    ∀ snapshot ∈ snapshots, snapshot.sequence ≠ rawSequence := by
  intro snapshot member
  exact expired.absent _ _ ((indexes.mem_listSnapshots listed).mp member)

theorem publicSnapshot (indexes : SnapshotIndexes kv)
    (metadata : CatalogMetadata) : snapshotByPublicSequence kv metadata rawSequence = .ok none := by
  obtain ⟨context, loaded⟩ := indexes.load_ok metadata
  have missing := load_publicSnapshot_eq_none loaded (expired.absent_listed indexes)
  simp only [snapshotByPublicSequence, expired.latest_filter_eq, loaded, bind, Except.bind, pure, Except.pure, missing]

theorem ducklakeSnapshot (metadata : CatalogMetadata) :
    retainedSnapshotByDucklakeSequence kv metadata rawSequence = .ok (some row) := by
  simp only [retainedSnapshotByDucklakeSequence, expired.latest_filter_eq, expired.raw]

theorem inlineRead (indexes : SnapshotIndexes kv)
    (metadata : CatalogMetadata) (statsRequest : InlineStatsRequest) :
    inlineReadSnapshot kv metadata (some rawSequence) statsRequest = .ok (some row) := by
  simp only [inlineReadSnapshot, expired.latest_filter_le, expired.publicSnapshot indexes, expired.ducklakeSnapshot,
    ite_self, bind, Except.bind, pure, Except.pure, Option.some_or]

theorem resolveDucklake (metadata : CatalogMetadata) :
    resolveSnapshot kv metadata rawSequence .ducklakeSequence = .ok row := by
  simp only [resolveSnapshot, expired.latest_filter_le, expired.raw, Option.some_or, Option.elim]

/-- As long as some public id is not below it, an expired id is not taken for the next commit. -/
theorem resolvePublic (indexes : SnapshotIndexes kv)
    {context : SnapshotReadContext} {newest : RawSnapshotSequence}
    (loaded : SnapshotReadContext.load kv metadata = .ok context)
    (isNewest : context.latestPublicSnapshotId = some newest) (notNext : rawSequence ≤ newest) :
    resolveSnapshot kv metadata rawSequence .publicSnapshot = .error (missingCatalogSnapshotError rawSequence) := by
  have missing := load_publicSnapshot_eq_none loaded (expired.absent_listed indexes)
  obtain ⟨latest, isLatest, _⟩ := expired.passed
  have notLatest : latestOrNextPublicSnapshot (latestSnapshot kv) context rawSequence = none := by
    rw [latestOrNextPublicSnapshot, isNewest, isLatest]
    exact if_neg (not_lt.mpr notNext)
  simp only [resolveSnapshot, expired.latest_filter_eq, loaded, bind, Except.bind, missing, notLatest, Option.none_or,
    Option.elim]

end ExpiredSequence

/-- In every later store an expired id is found by no public lookup, and every lookup by sequence answers with the
raw row of that very sequence. -/
theorem expiredSnapshot_lookups (reachable : kv.Reachable) {rawSequences : List RawSnapshotSequence}
    {expired : List SnapshotRow} {snapshot : SnapshotRow}
    (expires : expireSnapshots kv rawSequences = .ok (expired, next)) (member : snapshot ∈ expired)
    (reaches : next.Reaches later) :
    ∃ last, last.sequence = snapshot.sequence ∧ snapshot.order ≤ last.order ∧
      snapshotByDucklakeSequence later snapshot.sequence = some last ∧
      ∀ metadata, snapshotByPublicSequence later metadata snapshot.sequence = .ok none ∧
        retainedSnapshotByDucklakeSequence later metadata snapshot.sequence = .ok (some last) ∧
        (∀ statsRequest, inlineReadSnapshot later metadata (some snapshot.sequence) statsRequest = .ok (some last)) ∧
        resolveSnapshot later metadata snapshot.sequence .ducklakeSequence = .ok last ∧
        ∀ context newest, SnapshotReadContext.load later metadata = .ok context →
          context.latestPublicSnapshotId = some newest → snapshot.sequence ≤ newest →
          resolveSnapshot later metadata snapshot.sequence .publicSnapshot =
            .error (missingCatalogSnapshotError snapshot.sequence) := by
  obtain ⟨last, sameSequence, notOlder, gone⟩ := expiredSequence_expireSnapshots reachable.snapshotIndexes expires member
  have steps : kv.Reaches next := .single ⟨.call (.expireSnapshots rawSequences), by
    simp [CatalogStep.apply, CatalogOperation.apply, dropResult, keepOnError, expires]⟩
  have indexes : SnapshotIndexes later := by
    obtain ⟨lastOrder, now, earlier⟩ := reachable
    exact CatalogKv.Reachable.snapshotIndexes ⟨lastOrder, now, (earlier.trans steps).trans reaches⟩
  have stays := gone.reaches reaches
  obtain ⟨latest, isLatest, passed⟩ := stays.passed
  refine ⟨last, sameSequence, notOlder, ?_, ?_⟩
  · simp only [snapshotByDucklakeSequence, isLatest, if_neg passed.ne', stays.raw]
  · intro metadata
    refine ⟨stays.publicSnapshot indexes metadata, stays.ducklakeSnapshot metadata, stays.inlineRead indexes metadata,
      stays.resolveDucklake metadata, ?_⟩
    intro context newest loaded isNewest notNext
    exact stays.resolvePublic indexes loaded isNewest notNext

end

/-- A catalog with three snapshots, the middle one of sequence 1. -/
def threeSnapshots : CatalogKv :=
  runSteps (CatalogHistory.start 0 0).kv
    [.call (.registerInlinePayload 0 1 0 (rowTag ++ [tab, 55, newline])),
      .call (.registerInlinePayload 0 1 0 (rowTag ++ [tab, 56, newline]))]

theorem threeSnapshots_expire : ∃ next, expireSnapshots threeSnapshots [1] = .ok ([.new 2 1 0], next) := by
  have expired : (expireSnapshots threeSnapshots [1]).toOption.map Prod.fst = some [.new 2 1 0] := by decide +kernel
  cases outcome : expireSnapshots threeSnapshots [1] with
  | error failure => simp [outcome, Except.toOption] at expired
  | ok result =>
    obtain ⟨removed, next⟩ := result
    obtain rfl : removed = [.new 2 1 0] := by simpa [outcome, Except.toOption] using expired
    exact ⟨next, rfl⟩

theorem expiredSnapshot_lookups_middle :
    ∃ next, expireSnapshots threeSnapshots [1] = .ok ([.new 2 1 0], next) ∧
      snapshotByPublicSequence next {} 1 = .ok none ∧
      inlineReadSnapshot next {} (some 1) .exact = inlineReadSnapshot next {} (some 1) .global ∧
      ∃ last, last.sequence = 1 ∧ resolveSnapshot next {} 1 .ducklakeSequence = .ok last := by
  obtain ⟨next, expires⟩ := threeSnapshots_expire
  obtain ⟨last, sequence, _, _, lookups⟩ := expiredSnapshot_lookups (reachable_runSteps 0 0 _) expires
    (List.mem_singleton.mpr rfl) .refl
  obtain ⟨notPublic, _, inlineRead, resolved, _⟩ := lookups {}
  exact ⟨next, expires, notPublic, (inlineRead .exact).trans (inlineRead .global).symm, last, sequence, resolved⟩

/-- The raw row of an expired snapshot is still found by its sequence. -/
theorem expiredSnapshot_found_by_sequence :
    ¬∀ (kv next later : CatalogKv) (rawSequences : List RawSnapshotSequence) (expired : List SnapshotRow)
        (snapshot : SnapshotRow), kv.Reachable → expireSnapshots kv rawSequences = .ok (expired, next) →
      snapshot ∈ expired → next.Reaches later → snapshotByDucklakeSequence later snapshot.sequence = none := by
  intro hidden
  obtain ⟨next, expires⟩ := threeSnapshots_expire
  have missing := hidden threeSnapshots next next [1] _ (.new 2 1 0) (reachable_runSteps 0 0 _) expires
    (List.mem_singleton.mpr rfl) .refl
  have found : (expireSnapshots threeSnapshots [1]).toOption.bind (fun result =>
      snapshotByDucklakeSequence result.2 1) = some (.new 2 1 0) := by decide +kernel
  rw [expires] at found
  have kept : snapshotByDucklakeSequence next 1 = some (.new 2 1 0) := found
  have sequence : (SnapshotRow.new 2 1 0).sequence = 1 := rfl
  rw [sequence, kept] at missing
  simp at missing

end DucklakeCatalog
