import DucklakeCatalog.Fdb.FileIds
import DucklakeCatalog.Run.SharedStores

/-! The sequences of snapshots against the order of their commits. A client takes
its sequence from the latest snapshot it has read, and its transaction does not
look at that snapshot again. -/
namespace DucklakeCatalog.Fdb

open KeyedStore

/-- What an action takes its sequence from: the state it has read and the sequence it was asked for. -/
def SharedAction.proposal : SharedAction → Option (FdbStore × Option Nat)
  | .files (.dataMutation attempt) => some (attempt.seen, attempt.plan.attempt.proposedSnapshot)
  | .tables (.createTables seen _ _ commitRawSnapshot _) _ => some (seen, commitRawSnapshot)
  | .tables (.replaceTables seen _ _ _ commitRawSnapshot _) _ => some (seen, commitRawSnapshot)
  | _ => none

/-- The sequence asked for, if there is one, is a `u64`. -/
def SharedAction.Proposes (action : SharedAction) : Prop :=
  ∃ seen proposed, action.proposal = some (seen, proposed) ∧ ∀ requested, proposed = some requested → requested ≤ u64Max

/-- Data mutations, table creations, table replacements and the file ids they reserve. -/
def SequenceStep (history : SharedHistory) (moment : SharedMoment) : Prop :=
  SharedStep history moment ∧ ∀ action, moment.action = some action →
    action.Proposes ∨ ∃ count, action = .files (.fileIds count)

def SequencesInOrder (kv : CatalogKv) : Prop :=
  ∀ earlier later left right, kv.snapshot.get? earlier = some left → kv.snapshot.get? later = some right →
    earlier < later → left.sequence ≤ right.sequence

/-- The snapshots of a catalog up to its last order, the latest one with the greatest sequence. -/
structure SnapshotsSound (store : FdbStore) : Prop where
  inOrder : SequencesInOrder store.kv
  begun : ∀ order snapshot, store.kv.snapshot.get? order = some snapshot → order ≤ store.lastOrder
  latest : ∀ order snapshot, store.kv.snapshot.get? order = some snapshot →
    ∃ newest, latestSnapshot store.kv = some newest ∧ snapshot.sequence ≤ newest.sequence
  fits : ∀ newest, latestSnapshot store.kv = some newest → newest.sequence ≤ u64Max

abbrev SequenceRun (history : SharedHistory) : Prop :=
  History.Reachable (fun moment => moment.action = none ∧ SnapshotsSound moment.store) SequenceStep history

/-- The commit of the moment has taken a sequence above the latest one it had read. -/
def SharedMoment.TakesFresh (moment : SharedMoment) (proposed : Option Nat) (sequence : RawSnapshotSequence) : Prop :=
  ∃ action seen snapshot, moment.action = some action ∧ action.proposal = some (seen, proposed) ∧
    moment.store.kv.snapshot.get? moment.store.lastOrder = some snapshot ∧ snapshot.sequence = sequence ∧
    ∀ latest, latestSnapshot seen.kv = some latest → latest.sequence < sequence

/-- Sequences follow the order of the commits, and no two commits of different
proposals take one fresh sequence. -/
structure SequencesFollowCommits (history : SharedHistory) : Prop where
  inOrder : ∀ moment ∈ history.states, SequencesInOrder moment.store.kv
  unshared : ∀ earlier moment, history.Took earlier moment → ∀ sooner other, earlier.Took sooner other →
    ∀ proposed otherProposed sequence otherSequence, moment.TakesFresh proposed sequence →
      other.TakesFresh otherProposed otherSequence → proposed ≠ otherProposed → sequence ≠ otherSequence

/-- At the transaction the latest sequence is still the one that was read, or the
sequence asked for is above it. -/
def ReadsSequenceInTime (earlier : SharedHistory) (moment : SharedMoment) : Prop :=
  ∀ action seen proposed, moment.action = some action → action.proposal = some (seen, proposed) →
    (latestSnapshot seen.kv).map SnapshotRow.sequence =
        (latestSnapshot earlier.current.store.kv).map SnapshotRow.sequence ∨
      ∃ requested, proposed = some requested ∧ ∀ latest, latestSnapshot earlier.current.store.kv = some latest →
        latest.sequence < requested

/-! ## The three rules -/

/-- What every rule makes of the latest sequence and the proposed one. -/
structure FollowsLatest (latest : Option SnapshotRow) (proposed : Option Nat) (sequence : RawSnapshotSequence) : Prop where
  reaches : ∀ newest, latest = some newest → newest.sequence ≤ u64Max → newest.sequence ≤ sequence
  takes : ∀ requested, proposed = some requested → (∀ newest, latest = some newest → newest.sequence < requested) →
    sequence = requested
  fits : (∀ requested, proposed = some requested → requested ≤ u64Max) → sequence ≤ u64Max

/-- The sequence after the latest one, or the proposed one as far as the latest lets it be kept. -/
def sequenceAfter (Keeps : RawSnapshotSequence → Nat → Bool) (latest : Option SnapshotRow) (proposed : Option Nat) :
    RawSnapshotSequence :=
  latest.elim (proposed.getD 0) fun newest =>
    match proposed.filter (Keeps newest.sequence) with
    | some requested => requested
    | none => saturatingAdd newest.sequence 1

theorem sequenceAfter_follows {Keeps : RawSnapshotSequence → Nat → Bool}
    (reached : ∀ newest requested, Keeps newest requested = true → newest ≤ requested)
    (above : ∀ newest requested, newest < requested → Keeps newest requested = true) (latest : Option SnapshotRow)
    (proposed : Option Nat) : FollowsLatest latest proposed (sequenceAfter Keeps latest proposed) := by
  cases latest with
  | none =>
    refine ⟨(fun _ none => nomatch none), ?_, ?_⟩
    · intro requested isRequested _
      rw [isRequested]
      rfl
    · intro fits
      cases proposed with
      | none => exact Nat.zero_le _
      | some requested => exact fits requested rfl
  | some newest =>
    have next : newest.sequence ≤ u64Max → newest.sequence ≤ saturatingAdd newest.sequence 1 :=
      fun fits => le_min (Nat.le_succ _) fits
    cases kept : proposed.filter (Keeps newest.sequence) with
    | none =>
      simp only [sequenceAfter, Option.elim_some, kept]
      refine ⟨?_, ?_, fun _ => Nat.min_le_right _ _⟩
      · intro other same
        exact Option.some.inj same ▸ next
      · intro requested isRequested isAbove
        have passes := above newest.sequence requested (isAbove newest rfl)
        rw [isRequested, Option.filter_some, if_pos passes] at kept
        cases kept
    | some requested =>
      obtain ⟨isRequested, passes⟩ := Option.filter_eq_some_iff.mp kept
      simp only [sequenceAfter, Option.elim_some, kept]
      refine ⟨?_, ?_, fun fits => fits requested isRequested⟩
      · intro other same _
        exact Option.some.inj same ▸ reached newest.sequence requested passes
      · intro other isOther _
        exact Option.some.inj (isRequested.symm.trans isOther)

variable {proposed : Option Nat} {seen store next : FdbStore}

theorem mutationSnapshotSequence_follows {latest : Option SnapshotRow}
    {sequence : RawSnapshotSequence} (derives : mutationSnapshotSequence latest proposed = .ok sequence) :
    FollowsLatest latest proposed sequence := by
  have same : sequence = sequenceAfter (fun newest requested => newest ≤ requested) latest proposed := by
    unfold mutationSnapshotSequence at derives
    cases proposed with
    | none =>
      obtain rfl := Except.ok.inj derives
      cases latest <;> rfl
    | some requested =>
      dsimp only at derives
      split at derives
      · cases derives
      · obtain rfl := Except.ok.inj derives
        cases latest with
        | none => rfl
        | some newest => by_cases keeps : newest.sequence ≤ requested <;> simp [sequenceAfter, Option.filter_some, keeps]
  rw [same]
  exact sequenceAfter_follows (fun _ _ => of_decide_eq_true) (fun _ _ less => decide_eq_true (Nat.le_of_lt less)) _ _

theorem freshCommitRawSnapshot_follows (seen : FdbStore) (proposed : Option RawSnapshotSequence) :
    FollowsLatest (latestSnapshot seen.kv) proposed ((freshCommitRawSnapshot seen proposed).getD
      ((latestSnapshot seen.kv).elim 0 fun latest => saturatingAdd latest.sequence 1)) := by
  have same : (freshCommitRawSnapshot seen proposed).getD
      ((latestSnapshot seen.kv).elim 0 fun latest => saturatingAdd latest.sequence 1) =
      sequenceAfter (fun newest requested => newest < requested) (latestSnapshot seen.kv) proposed := by
    unfold freshCommitRawSnapshot sequenceAfter
    cases latestSnapshot seen.kv with
    | none => cases proposed <;> rfl
    | some newest =>
      cases proposed with
      | none => rfl
      | some requested => by_cases keeps : newest.sequence < requested <;> simp [Option.filter_some, keeps]
  rw [same]
  exact sequenceAfter_follows (fun _ _ less => Nat.le_of_lt (of_decide_eq_true less)) (fun _ _ => decide_eq_true) _ _

/-- A commit with a proposal writes one snapshot, whose sequence follows the latest one it has read. -/
structure CommitsSnapshot (seen store next : FdbStore) (proposed : Option Nat) (snapshot : SnapshotRow) : Prop where
  order : snapshot.order = store.commitOrder
  lastOrder : next.lastOrder = store.commitOrder
  copies : CatalogKv.snapshotCopies next.kv = CatalogKv.snapshotCopies (stageSnapshot store.kv snapshot)
  follows : FollowsLatest (latestSnapshot seen.kv) proposed snapshot.sequence

variable {now : Int} {tables : List TableRow} {recoveryId : Option CommitAttemptId} {commit : TableCommit}
  {history : SharedHistory}

theorem createTables_sequence {proposed : Option RawSnapshotSequence}
    (prepares : createTables seen now tables proposed recoveryId = .ok (some commit)) (order : CatalogOrderId) :
    FollowsLatest (latestSnapshot seen.kv) proposed (commit.snapshot order).sequence := by
  unfold createTables at prepares
  rw [bind_eq_ok] at prepares
  obtain ⟨_, _, prepares⟩ := prepares
  unfold createTablesVersionstamped at prepares
  split at prepares
  · cases prepares
  · simp only [bind_eq_ok, pure_eq_ok] at prepares
    obtain ⟨recovered, _, prepares⟩ := prepares
    split at prepares
    · cases prepares
    · obtain rfl := Option.some.inj prepares
      exact freshCommitRawSnapshot_follows seen proposed

theorem replaceTables_sequence {tableIds : List TableId} {proposed : Option RawSnapshotSequence}
    (prepares : replaceTables seen now tableIds tables proposed recoveryId = .ok (some commit))
    (order : CatalogOrderId) : FollowsLatest (latestSnapshot seen.kv) proposed (commit.snapshot order).sequence := by
  unfold replaceTables at prepares
  split at prepares
  · cases prepares
  · rw [bind_eq_ok] at prepares
    obtain ⟨recovered, _, prepares⟩ := prepares
    split at prepares
    · cases prepares
    · rw [map_eq_ok] at prepares
      obtain ⟨replaced, replaces, same⟩ := prepares
      obtain rfl := Option.some.inj same
      unfold prepareReplacedTables at replaces
      simp only [bind_eq_ok, pure_eq_ok] at replaces
      obtain ⟨_, _, latest, loads, drops, _, _, _, rfl⟩ := replaces
      have follows := freshCommitRawSnapshot_follows seen proposed
      rw [loadLatestSnapshot_ok loads] at follows ⊢
      exact follows

/-- The rules of data mutations, table creations and table replacements, in one. -/
theorem SharedAction.Applies.commitsSnapshot {action : SharedAction}
    (applies : action.Applies store next) (proposes : action.proposal = some (seen, proposed)) :
    ∃ snapshot, CommitsSnapshot seen store next proposed snapshot := by
  have tables : ∀ tableOperation (commit : TableCommit), action = .tables tableOperation commit →
      (∀ order, FollowsLatest (latestSnapshot seen.kv) proposed (commit.snapshot order).sequence) →
      ∃ snapshot, CommitsSnapshot seen store next proposed snapshot := by
    rintro tableOperation commit rfl follows
    have order : (commit.snapshot store.commitOrder).order = store.commitOrder := by cases commit <;> rfl
    exact ⟨_, order, (commit.transact_recorded applies.2).2, commit.transact_snapshotCopies applies.2, follows _⟩
  unfold SharedAction.proposal at proposes
  split at proposes
  · rename_i attempt
    obtain ⟨rfl, rfl⟩ := Prod.mk.inj (Option.some.inj proposes)
    obtain ⟨applied⟩ := transact_staged applies
    obtain ⟨_, _, _, renamed⟩ := reserveMutationFileIds_renaming applied.reserves
    have prepares := applied.prepares
    unfold prepareDataMutation at prepares
    simp only [bind_eq_ok, pure_eq_ok] at prepares
    obtain ⟨_, _, _, _, sequence, derives, _, _, _, _, isPrepared⟩ := prepares
    have follows := mutationSnapshotSequence_follows derives
    rw [renamed] at follows
    refine ⟨_, rfl, applied.lastOrder, applied.snapshotCopies, ?_⟩
    rw [← isPrepared]
    exact follows
  · obtain ⟨rfl, rfl⟩ := Prod.mk.inj (Option.some.inj proposes)
    exact tables _ _ rfl (createTables_sequence applies.1)
  · obtain ⟨rfl, rfl⟩ := Prod.mk.inj (Option.some.inj proposes)
    exact tables _ _ rfl (replaceTables_sequence applies.1)
  · cases proposes

/-! ## Along a run -/

/-- Stored snapshots stay, and the latest sequence does not fall. -/
structure SnapshotsGrow (store next : FdbStore) : Prop where
  kept : ∀ order snapshot, store.kv.snapshot.get? order = some snapshot → next.kv.snapshot.get? order = some snapshot
  latest : ∀ newest, latestSnapshot store.kv = some newest →
    ∃ later, latestSnapshot next.kv = some later ∧ newest.sequence ≤ later.sequence

theorem SnapshotsGrow.refl (store : FdbStore) : SnapshotsGrow store store :=
  ⟨fun _ _ found => found, fun newest isLatest => ⟨newest, isLatest, le_rfl⟩⟩

theorem SnapshotsGrow.trans {first second third : FdbStore} (left : SnapshotsGrow first second)
    (right : SnapshotsGrow second third) : SnapshotsGrow first third where
  kept := fun order snapshot found => right.kept order snapshot (left.kept order snapshot found)
  latest := by
    intro newest isLatest
    obtain ⟨later, isLater, below⟩ := left.latest newest isLatest
    obtain ⟨last, isLast, above⟩ := right.latest later isLater
    exact ⟨last, isLast, le_trans below above⟩

/-- The new snapshot lies above all stored ones, and strictly above them where its sequence is fresh. -/
structure SequencedStep (seen store next : FdbStore) : Prop where
  sound : SnapshotsSound next
  grows : SnapshotsGrow store next
  fresh : ∀ snapshot, next.kv.snapshot.get? next.lastOrder = some snapshot →
    (∀ latest, latestSnapshot seen.kv = some latest → latest.sequence < snapshot.sequence) →
    ∀ order earlier, store.kv.snapshot.get? order = some earlier → earlier.sequence < snapshot.sequence

theorem CommitsSnapshot.sequencedStep {snapshot : SnapshotRow}
    (commits : CommitsSnapshot seen store next proposed snapshot) (sound : SnapshotsSound store)
    (grown : SnapshotsGrow seen store) (fits : ∀ requested, proposed = some requested → requested ≤ u64Max)
    (inTime : (latestSnapshot seen.kv).map SnapshotRow.sequence = (latestSnapshot store.kv).map SnapshotRow.sequence ∨
      ∃ requested, proposed = some requested ∧ ∀ latest, latestSnapshot store.kv = some latest →
        latest.sequence < requested) : SequencedStep seen store next := by
  have copies := commits.copies
  simp only [CatalogKv.snapshotCopies, stageSnapshot, SnapshotCopies.mk.injEq] at copies
  obtain ⟨snapshots, _, latests, _⟩ := copies
  rw [commits.order] at snapshots
  have isLatest : latestSnapshot next.kv = some snapshot := by
    rw [latestSnapshot, latests, OrderedMap.get?_insert_self]
  have isNew : next.kv.snapshot.get? store.commitOrder = some snapshot := by
    rw [snapshots, OrderedMap.get?_insert_self]
  have isOld : ∀ order earlier, store.kv.snapshot.get? order = some earlier →
      order < store.commitOrder ∧ next.kv.snapshot.get? order = some earlier := by
    intro order earlier found
    have before := Nat.lt_of_le_of_lt (sound.begun order earlier found) store.lastOrder_lt
    rw [snapshots, OrderedMap.get?_insert, if_neg (Nat.ne_of_lt before)]
    exact ⟨before, found⟩
  have split : ∀ order found, next.kv.snapshot.get? order = some found →
      (order = store.commitOrder ∧ found = snapshot) ∨ store.kv.snapshot.get? order = some found := by
    intro order found isFound
    rw [snapshots, OrderedMap.get?_insert] at isFound
    split at isFound
    · rename_i atCommit
      exact Or.inl ⟨atCommit, (Option.some.inj isFound).symm⟩
    · exact Or.inr isFound
  have above : ∀ newest, latestSnapshot store.kv = some newest → newest.sequence ≤ snapshot.sequence ∧
      ((∀ latest, latestSnapshot seen.kv = some latest → latest.sequence < snapshot.sequence) →
        newest.sequence < snapshot.sequence) := by
    intro newest isNewest
    rcases inTime with unchanged | ⟨requested, isRequested, isAbove⟩
    · rw [isNewest, Option.map_some, Option.map_eq_some_iff] at unchanged
      obtain ⟨latest, wasLatest, same⟩ := unchanged
      have reached := commits.follows.reaches latest wasLatest (same ▸ sound.fits newest isNewest)
      exact ⟨same ▸ reached, fun fresh => same ▸ fresh latest wasLatest⟩
    · have taken : snapshot.sequence = requested := by
        refine commits.follows.takes requested isRequested ?_
        intro latest wasLatest
        obtain ⟨later, isLater, below⟩ := grown.latest latest wasLatest
        exact lt_of_le_of_lt below (isAbove later isLater)
      have less := isAbove newest isNewest
      rw [taken]
      exact ⟨Nat.le_of_lt less, fun _ => less⟩
  have older : ∀ order earlier, store.kv.snapshot.get? order = some earlier → earlier.sequence ≤ snapshot.sequence := by
    intro order earlier found
    obtain ⟨newest, isNewest, below⟩ := sound.latest order earlier found
    exact le_trans below (above newest isNewest).1
  refine ⟨⟨?_, ?_, ?_, ?_⟩, ⟨fun order earlier found => (isOld order earlier found).2, ?_⟩, ?_⟩
  · intro first second left right isLeft isRight before
    rcases split first left isLeft with ⟨rfl, rfl⟩ | wasLeft
    · rcases split second right isRight with ⟨rfl, rfl⟩ | wasRight
      · exact le_rfl
      · exact absurd before (Nat.lt_asymm (isOld second right wasRight).1)
    · rcases split second right isRight with ⟨rfl, rfl⟩ | wasRight
      · exact older first left wasLeft
      · exact sound.inOrder first second left right wasLeft wasRight before
  · intro order found isFound
    rw [commits.lastOrder]
    rcases split order found isFound with ⟨rfl, rfl⟩ | wasFound
    · exact le_rfl
    · exact Nat.le_of_lt (isOld order found wasFound).1
  · intro order found isFound
    refine ⟨snapshot, isLatest, ?_⟩
    rcases split order found isFound with ⟨rfl, rfl⟩ | wasFound
    · exact le_rfl
    · exact older order found wasFound
  · intro newest isNewest
    obtain rfl := Option.some.inj (isLatest.symm.trans isNewest)
    exact commits.follows.fits fits
  · exact fun newest isNewest => ⟨snapshot, isLatest, (above newest isNewest).1⟩
  · intro found isFound fresh order earlier wasFound
    rw [commits.lastOrder, isNew] at isFound
    obtain rfl := Option.some.inj isFound
    obtain ⟨newest, isNewest, below⟩ := sound.latest order earlier wasFound
    exact lt_of_le_of_lt below ((above newest isNewest).2 fresh)

/-- A step that leaves the snapshots alone. -/
theorem SnapshotsSound.of_eq (sound : SnapshotsSound store)
    (same : CatalogKv.snapshotCopies next.kv = CatalogKv.snapshotCopies store.kv)
    (later : store.lastOrder ≤ next.lastOrder) : SnapshotsSound next ∧ SnapshotsGrow store next := by
  simp only [CatalogKv.snapshotCopies, SnapshotCopies.mk.injEq] at same
  obtain ⟨snapshots, _, latests, _⟩ := same
  refine ⟨⟨?_, ?_, ?_, ?_⟩, ⟨?_, ?_⟩⟩
  · unfold SequencesInOrder
    rw [snapshots]
    exact sound.inOrder
  · rw [snapshots]
    exact fun order snapshot found => le_trans (sound.begun order snapshot found) later
  · rw [snapshots, latestSnapshot, latests]
    exact sound.latest
  · rw [latestSnapshot, latests]
    exact sound.fits
  · rw [snapshots]
    exact fun _ _ found => found
  · rw [latestSnapshot, latestSnapshot, latests]
    exact fun newest isNewest => ⟨newest, isNewest, le_rfl⟩

/-- The states of a run so far. -/
structure SequencedSoFar (history : SharedHistory) : Prop where
  sound : ∀ moment ∈ history.states, SnapshotsSound moment.store
  grows : ∀ moment ∈ history.states, SnapshotsGrow moment.store history.current.store

theorem SequenceStep.sequenced {moment : SharedMoment} (step : SequenceStep history moment)
    (inTime : ReadsSequenceInTime history moment) (soFar : SequencedSoFar history) :
    SnapshotsSound moment.store ∧ SnapshotsGrow history.current.store moment.store ∧
      ∀ action seen proposed, moment.action = some action → action.proposal = some (seen, proposed) →
        SequencedStep seen history.current.store moment.store := by
  obtain ⟨⟨action, isAction, reads, applies⟩, kind⟩ := step
  have sound := soFar.sound _ history.current_mem
  rcases kind action isAction with ⟨seen, proposed, proposes, fits⟩ | ⟨count, rfl⟩
  · obtain ⟨snapshot, commits⟩ := SharedAction.Applies.commitsSnapshot applies proposes
    have isRead : seen ∈ action.reads := by
      unfold SharedAction.proposal at proposes
      split at proposes
      · obtain ⟨rfl, _⟩ := Prod.mk.inj (Option.some.inj proposes)
        exact List.mem_singleton_self _
      · obtain ⟨rfl, _⟩ := Prod.mk.inj (Option.some.inj proposes)
        exact List.mem_singleton_self _
      · obtain ⟨rfl, _⟩ := Prod.mk.inj (Option.some.inj proposes)
        exact List.mem_singleton_self _
      · cases proposes
    obtain ⟨sooner, member, rfl⟩ := List.mem_map.mp (reads seen isRead)
    have sequenced := commits.sequencedStep sound (soFar.grows sooner member) fits
      (inTime action sooner.store proposed isAction proposes)
    refine ⟨sequenced.sound, sequenced.grows, ?_⟩
    intro other seen otherProposed isOther otherProposes
    obtain rfl := Option.some.inj (isAction.symm.trans isOther)
    obtain ⟨rfl, rfl⟩ := Prod.mk.inj (Option.some.inj (proposes.symm.trans otherProposes))
    exact sequenced
  · obtain ⟨first, reserves⟩ := applies
    have left := reserveFileIdRange_leavesFiles reserves
    have same : CatalogKv.snapshotCopies moment.store.kv = CatalogKv.snapshotCopies history.current.store.kv := by
      obtain ⟨_, next⟩ := reserveFileIdRange_ok reserves
      rw [next]
      rfl
    have later : history.current.store.lastOrder ≤ moment.store.lastOrder := by
      rw [left.lastOrder]
      exact Nat.le_of_lt history.current.store.lastOrder_lt
    obtain ⟨nextSound, grows⟩ := sound.of_eq same later
    refine ⟨nextSound, grows, ?_⟩
    intro action seen proposed isOther proposes
    obtain rfl := Option.some.inj (isAction.symm.trans isOther)
    cases proposes

/-- Runs in which every commit meets its latest sequence in time. -/
abbrev TimelyRun (history : SharedHistory) : Prop :=
  History.Reachable (fun moment => moment.action = none ∧ SnapshotsSound moment.store)
    (fun history moment => SequenceStep history moment ∧ ReadsSequenceInTime history moment) history

theorem TimelyRun.soFar (run : TimelyRun history) : SequencedSoFar history := by
  induction run with
  | start isStart =>
    constructor
    · intro moment member
      rw [List.mem_singleton.mp member]
      exact isStart.2
    · intro moment member
      rw [List.mem_singleton.mp member]
      exact SnapshotsGrow.refl _
  | @step history next earlier taken ih =>
    obtain ⟨sound, grows, _⟩ := taken.1.sequenced taken.2 ih
    constructor
    · intro moment member
      rcases List.mem_cons.mp member with rfl | before
      · exact sound
      · exact ih.sound moment before
    · intro moment member
      rcases List.mem_cons.mp member with rfl | before
      · exact SnapshotsGrow.refl _
      · exact (ih.grows moment before).trans grows

/-- In a run whose commits all meet their latest sequence in time, sequences follow the commits. -/
theorem sequences_follow_commits {history : SharedHistory} (run : SequenceRun history)
    (inTime : ∀ earlier moment, history.Took earlier moment → ReadsSequenceInTime earlier moment) :
    SequencesFollowCommits history := by
  have timely : TimelyRun history := run.restrict ReadsSequenceInTime inTime
  constructor
  · exact fun moment member => ((TimelyRun.soFar timely).sound moment member).inOrder
  · rintro earlier moment took sooner other tookOther proposed otherProposed sequence otherSequence
      ⟨action, seen, snapshot, isAction, proposes, stored, rfl, fresh⟩ ⟨_, _, otherSnapshot, _, _, otherStored, rfl, _⟩ _
    obtain ⟨before, step⟩ := timely.took took
    have soFar := TimelyRun.soFar before
    obtain ⟨_, _, sequenced⟩ := step.1.sequenced step.2 soFar
    have kept := (soFar.grows other tookOther.mem).kept _ _ otherStored
    have less := (sequenced action seen proposed isAction proposes).fresh snapshot stored fresh _ _ kept
    exact (Nat.ne_of_lt less).symm

theorem snapshotsSound_empty : SnapshotsSound {} where
  inOrder := fun _ _ _ _ found => nomatch found
  begun := fun _ _ found => nomatch found
  latest := fun _ _ found => nomatch found
  fits := fun _ found => nomatch found

def ordersAt (seen : FdbStore) (sequence : Option RawSnapshotSequence) : TableOperation :=
  .createTables seen 0 [{ tableId := 1, name := "orders", validity := ⟨autoOrder, none⟩ }] sequence none

def returnsAt (seen : FdbStore) (sequence : Option RawSnapshotSequence) : TableOperation :=
  .createTables seen 0 [{ tableId := 2, name := "returns", validity := ⟨autoOrder, none⟩ }] sequence none

def ordersMoment : SharedMoment := .operating {} (ordersAt {} (some 5))

def ordersRun : SharedHistory := (History.start ⟨{}, none⟩).extend ordersMoment

def returnsRun (seen : FdbStore) (sequence : Option RawSnapshotSequence) : SharedHistory :=
  ordersRun.extend (.operating ordersMoment.store (returnsAt seen sequence))

theorem ordersRun_run : SequenceRun ordersRun := by
  have creates := SharedMoment.operating_step (History.start ⟨{}, none⟩) (ordersAt {} (some 5))
    (by simp [ordersAt, TableOperation.reads]) (by decide +kernel)
  refine History.Reachable.step (History.Reachable.start ⟨rfl, snapshotsSound_empty⟩) ⟨creates.1, ?_⟩
  intro action isAction
  obtain ⟨commit, rfl⟩ := creates.2 action isAction
  exact Or.inl ⟨_, _, rfl, by rintro _ ⟨⟩; decide⟩

theorem returnsRun_run {sequence : Option RawSnapshotSequence} (read : seen ∈ ordersRun.states.map SharedMoment.store)
    (fits : ∀ requested, sequence = some requested → requested ≤ u64Max)
    (commits : (returnsRun seen sequence).current.action.isSome) : SequenceRun (returnsRun seen sequence) := by
  have creates := SharedMoment.operating_step ordersRun (returnsAt seen sequence)
    (by simpa [returnsAt, TableOperation.reads] using read) commits
  refine History.Reachable.step ordersRun_run ⟨creates.1, ?_⟩
  intro action isAction
  obtain ⟨commit, rfl⟩ := creates.2 action isAction
  exact Or.inl ⟨_, _, rfl, fits⟩

/-- A second client that has read the first one's snapshot takes the sequence after it. -/
theorem sequences_follow_commits_returns :
    (latestSnapshot (returnsRun ordersMoment.store none).current.store.kv).map SnapshotRow.sequence = some 6 ∧
      SequencesFollowCommits (returnsRun ordersMoment.store none) := by
  have commits : (returnsRun ordersMoment.store none).current.action.isSome := by decide +kernel
  have run := returnsRun_run (List.mem_map_of_mem ordersRun.current_mem) (by simp) commits
  refine ⟨by decide +kernel, sequences_follow_commits run ?_⟩
  rintro earlier moment took action seen proposed isAction proposes
  left
  rcases History.took_extend.mp took with ⟨rfl, rfl⟩ | took
  · obtain ⟨commit, rfl⟩ := (SharedMoment.operating_step ordersRun (returnsAt ordersMoment.store none)
      (by simp [returnsAt, TableOperation.reads, ordersRun]) commits).2 action isAction
    obtain ⟨rfl, rfl⟩ := Prod.mk.inj (Option.some.inj proposes)
    rfl
  · rcases History.took_extend.mp took with ⟨rfl, rfl⟩ | took
    · obtain ⟨commit, rfl⟩ := (SharedMoment.operating_step (History.start ⟨{}, none⟩) (ordersAt {} (some 5))
        (by simp [ordersAt, TableOperation.reads]) (by decide +kernel)).2 action isAction
      obtain ⟨rfl, rfl⟩ := Prod.mk.inj (Option.some.inj proposes)
      rfl
    · exact absurd took (History.not_took_start _ _ _)

/-- A client that has read the empty catalog commits sequence 3 after another has committed 5. -/
theorem sequences_overtaken : ¬∀ history, SequenceRun history → SequencesFollowCommits history := by
  intro follows
  have commits : (returnsRun {} (some 3)).current.action.isSome := by decide +kernel
  have run := returnsRun_run (by simp [ordersRun]) (by rintro _ ⟨⟩; decide) commits
  have inOrder := (follows _ run).inOrder _ (History.current_mem _)
  have orders : ((returnsRun {} (some 3)).current.store.kv.snapshot.get? 1).map SnapshotRow.sequence = some 5 := by
    decide +kernel
  have returns : ((returnsRun {} (some 3)).current.store.kv.snapshot.get? 2).map SnapshotRow.sequence = some 3 := by
    decide +kernel
  obtain ⟨first, isFirst, firstSequence⟩ := Option.map_eq_some_iff.mp orders
  obtain ⟨second, isSecond, secondSequence⟩ := Option.map_eq_some_iff.mp returns
  have below := inOrder 1 2 first second isFirst isSecond (by decide)
  rw [firstSequence, secondSequence] at below
  exact absurd below (by decide)

end DucklakeCatalog.Fdb
