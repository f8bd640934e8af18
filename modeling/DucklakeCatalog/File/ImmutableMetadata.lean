import DucklakeCatalog.File.DataFileIndexes
import DucklakeCatalog.KeyedStore.OrderedSet
import DucklakeCatalog.KeyedStore.WriteOnce

namespace DucklakeCatalog

open KeyedStore

structure ImmutableDataFileMetadata where
  dataFileId : DataFileId
  tableId : TableId
  path : String
  recordCount : Nat
  fileSizeBytes : Nat
  footerSize : Option Nat
  rowIdStart : Nat
  rowIdStartKnown : Bool
  mappingId : Option Nat
  maxPartialOrder : Option CatalogOrderId
  deriving DecidableEq, Repr

def DataFileRow.immutableMetadata (row : DataFileRow) : ImmutableDataFileMetadata where
  dataFileId := row.dataFileId
  tableId := row.tableId
  path := row.path
  recordCount := row.recordCount
  fileSizeBytes := row.fileSizeBytes
  footerSize := row.footerSize
  rowIdStart := row.rowIdStart
  rowIdStartKnown := row.rowIdStartKnown
  mappingId := row.mappingId
  maxPartialOrder := row.maxPartialOrder

@[simp] theorem DataFileRow.immutableMetadata_withEndOrder (row : DataFileRow) (endOrder : Option CatalogOrderId) :
    (row.withEndOrder endOrder).immutableMetadata = row.immutableMetadata := rfl

@[simp] theorem DataFileRow.immutableMetadata_withBeginOrder (row : DataFileRow) (beginOrder : CatalogOrderId) :
    (row.withBeginOrder beginOrder).immutableMetadata = row.immutableMetadata := rfl

/-! ## What a commit leaves of the metadata -/

namespace DataFileIndexes

/-- Closing a file rewrites its row with the same metadata. -/
theorem Step.metadata (step : Step newIds order before after) (old : dataFileId ∉ newIds)
    (found : after.dataFile.get? dataFileId = some row) :
    ∃ earlier, before.dataFile.get? dataFileId = some earlier ∧
      earlier.immutableMetadata = row.immutableMetadata := by
  cases step with
  | append new absent opened =>
    simp only [DataFileIndexes.append, OrderedMap.get?_insert] at found
    split at found
    · rename_i same
      exact absurd (same ▸ new) old
    · exact ⟨row, found, rfl⟩
  | @expire stored _ primary closes =>
    simp only [DataFileIndexes.expire, OrderedMap.get?_insert] at found
    split at found
    · rename_i same
      obtain rfl := Option.some.inj found
      exact ⟨stored, same ▸ primary, (stored.immutableMetadata_withEndOrder _).symm⟩
    · exact ⟨row, found, rfl⟩
  | remove stored =>
    simp only [DataFileIndexes.remove, OrderedMap.get?_erase] at found
    split at found
    · cases found
    · exact ⟨row, found, rfl⟩

theorem Steps.metadata (steps : Steps newIds order before after) (old : dataFileId ∉ newIds)
    (found : after.dataFile.get? dataFileId = some row) :
    ∃ earlier, before.dataFile.get? dataFileId = some earlier ∧
      earlier.immutableMetadata = row.immutableMetadata := by
  induction steps generalizing row with
  | refl => exact ⟨row, found, rfl⟩
  | tail _ step ih =>
    obtain ⟨middle, between, same⟩ := step.metadata old found
    obtain ⟨earlier, first, before⟩ := ih between
    exact ⟨earlier, first, before.trans same⟩

end DataFileIndexes

/-- The namespace of a handle differs from the others of its store in the read context only. -/
structure ImmutableDataFileMetadataCacheKey where
  readContext : Option Nat
  dataFileId : DataFileId
  deriving DecidableEq, Repr

abbrev ImmutableDataFileMetadataCache := Memo ImmutableDataFileMetadataCacheKey ImmutableDataFileMetadata

abbrev FoundMetadata := OrderedMap DataFileId ImmutableDataFileMetadata

/-- The rows that are not remembered, one after the other; each one that is found is remembered. -/
def loadMissingMetadata (source : OrderedMap DataFileId DataFileRow) (readContext : Option Nat) :
    List DataFileId → FoundMetadata → ImmutableDataFileMetadataCache →
      CatalogResult FoundMetadata × ImmutableDataFileMetadataCache
  | [], found, cache => (.ok found, cache)
  | requestedId :: rest, found, cache =>
    match source.get? requestedId with
    | none => (.error (.notFound "data file"), cache)
    | some dataFile =>
      if dataFile.dataFileId ≠ requestedId then
        (.error (.decode s!"data file key {requestedId} contained row {dataFile.dataFileId}"), cache)
      else
        loadMissingMetadata source readContext rest (found.insert requestedId dataFile.immutableMetadata)
          (cache.insert ⟨readContext, requestedId⟩ dataFile.immutableMetadata)

def immutableDataFileMetadataBatch (source : OrderedMap DataFileId DataFileRow)
    (cache : ImmutableDataFileMetadataCache) (readContext : Option Nat) (dataFileIds : List DataFileId) :
    CatalogResult FoundMetadata × ImmutableDataFileMetadataCache :=
  let requested := dataFileIds.dedup.insertionSort (· ≤ ·)
  let remembered := requested.foldl (fun (found : FoundMetadata) dataFileId =>
    (cache.find ⟨readContext, dataFileId⟩).elim found (found.insert dataFileId)) .empty
  let missing := requested.filter fun dataFileId => (cache.find ⟨readContext, dataFileId⟩).isNone
  loadMissingMetadata source readContext missing remembered cache

/-! ## What a batch finds -/

section

variable {source : OrderedMap DataFileId DataFileRow} {cache : ImmutableDataFileMetadataCache}
  {readContext : Option Nat}

/-- Loading adds the metadata of the stored rows to what is found. -/
theorem loadMissingMetadata_ok {missing : List DataFileId} {start found : FoundMetadata}
    {remembered : ImmutableDataFileMetadataCache}
    (loads : loadMissingMetadata source readContext missing start cache = (.ok found, remembered)) :
    ∀ dataFileId, found.get? dataFileId =
      if dataFileId ∈ missing then (source.get? dataFileId).map DataFileRow.immutableMetadata
      else start.get? dataFileId := by
  induction missing generalizing start cache with
  | nil =>
    simp only [loadMissingMetadata, Prod.mk.injEq, Except.ok.injEq] at loads
    intro dataFileId
    rw [loads.1, if_neg List.not_mem_nil]
  | cons requestedId rest ih =>
    unfold loadMissingMetadata at loads
    split at loads
    · cases (Prod.mk.inj loads).1
    · rename_i dataFile stored
      split at loads
      · cases (Prod.mk.inj loads).1
      · intro dataFileId
        rw [ih loads dataFileId]
        by_cases later : dataFileId ∈ rest
        · rw [if_pos later, if_pos (List.mem_cons_of_mem _ later)]
        · rw [if_neg later, OrderedMap.get?_insert]
          by_cases here : dataFileId = requestedId
          · rw [if_pos here, if_pos (here ▸ List.mem_cons_self), here, stored]
            rfl
          · rw [if_neg here, if_neg (fun listed => (List.mem_cons.mp listed).elim here later)]

/-- Nothing is missing where every row stands under its own id. -/
theorem loadMissingMetadata_stored {missing : List DataFileId} (start : FoundMetadata)
    (cache : ImmutableDataFileMetadataCache)
    (stored : ∀ dataFileId ∈ missing, ∃ row, source.get? dataFileId = some row ∧ row.dataFileId = dataFileId) :
    ∃ found, (loadMissingMetadata source readContext missing start cache).1 = .ok found := by
  induction missing generalizing start cache with
  | nil => exact ⟨start, rfl⟩
  | cons requestedId rest ih =>
    obtain ⟨row, present, named⟩ := stored requestedId List.mem_cons_self
    unfold loadMissingMetadata
    simp only [present, named, ne_eq, not_true_eq_false, if_false]
    exact ih _ _ fun dataFileId later => stored dataFileId (List.mem_cons_of_mem _ later)

theorem get?_foldl_remembered (requested : List DataFileId) (start : FoundMetadata) (dataFileId : DataFileId) :
    (requested.foldl (fun (found : FoundMetadata) requestedId =>
      (cache.find ⟨readContext, requestedId⟩).elim found (found.insert requestedId)) start).get? dataFileId =
        if dataFileId ∈ requested ∧ (cache.find ⟨readContext, dataFileId⟩).isSome then
          cache.find ⟨readContext, dataFileId⟩
        else start.get? dataFileId := by
  induction requested generalizing start with
  | nil => simp
  | cons requestedId rest ih =>
    rw [List.foldl_cons, ih]
    by_cases later : dataFileId ∈ rest
    · simp only [later, List.mem_cons, or_true, true_and]
      split
      · rfl
      · rename_i unknown
        cases held : cache.find ⟨readContext, requestedId⟩ with
        | none => rfl
        | some metadata =>
          rw [Option.elim_some, OrderedMap.get?_insert, if_neg]
          intro same
          rw [same, held] at unknown
          exact unknown rfl
    · rw [if_neg (fun both => later both.1)]
      by_cases here : dataFileId = requestedId
      · rw [← here]
        cases held : cache.find ⟨readContext, dataFileId⟩ with
        | none => simp
        | some metadata => simp
      · have unlisted : ¬(dataFileId ∈ requestedId :: rest ∧ (cache.find ⟨readContext, dataFileId⟩).isSome) := by
          intro both
          rcases List.mem_cons.mp both.1 with same | listed
          · exact here same
          · exact later listed
        rw [if_neg unlisted]
        cases cache.find ⟨readContext, requestedId⟩ with
        | none => rfl
        | some metadata => exact OrderedMap.get?_insert_ne start metadata here

/-- A batch answers with what is remembered, and for the rest with the stored rows. -/
theorem immutableDataFileMetadataBatch_ok {dataFileIds : List DataFileId} {found : FoundMetadata}
    (loads : (immutableDataFileMetadataBatch source cache readContext dataFileIds).1 = .ok found)
    {dataFileId : DataFileId} (listed : dataFileId ∈ dataFileIds) :
    found.get? dataFileId = (cache.find ⟨readContext, dataFileId⟩).or
      ((source.get? dataFileId).map DataFileRow.immutableMetadata) := by
  unfold immutableDataFileMetadataBatch at loads
  have requested := mem_orderedSet.mpr listed
  rw [loadMissingMetadata_ok (Prod.ext loads rfl), get?_foldl_remembered]
  cases held : cache.find ⟨readContext, dataFileId⟩ with
  | none =>
    rw [if_pos (List.mem_filter.mpr ⟨requested, by rw [held]; rfl⟩), Option.none_or]
  | some metadata =>
    rw [if_neg, if_pos ⟨requested, rfl⟩, Option.some_or]
    intro missing
    have unknown := (List.mem_filter.mp missing).2
    rw [held] at unknown
    cases unknown

theorem immutableDataFileMetadataBatch_stored {dataFileIds : List DataFileId}
    (stored : ∀ dataFileId ∈ dataFileIds, ∃ row, source.get? dataFileId = some row ∧ row.dataFileId = dataFileId) :
    ∃ found, (immutableDataFileMetadataBatch source cache readContext dataFileIds).1 = .ok found :=
  loadMissingMetadata_stored _ _ fun dataFileId missing =>
    stored dataFileId (mem_orderedSet.mp (List.mem_filter.mp missing).1)

end

/-! ## What a process remembers -/

/-- What a state says about a data file. -/
def storedMetadata {S : Type} (rows : S → OrderedMap DataFileId DataFileRow) (state : S) (dataFileId : DataFileId) :
    Option ImmutableDataFileMetadata :=
  ((rows state).get? dataFileId).map DataFileRow.immutableMetadata

variable {S : Type} {initial : S → Prop} {step : History S → S → Prop} {rows : S → OrderedMap DataFileId DataFileRow}
  {history : History S} {cache : ImmutableDataFileMetadataCache}

/-- A process that reads file metadata through its cache. -/
abbrev MetadataReader (initial : S → Prop) (step : History S → S → Prop) (rows : S → OrderedMap DataFileId DataFileRow)
    (history : History S) (cache : ImmutableDataFileMetadataCache) : Prop :=
  ReadThrough initial step (storedMetadata rows) ImmutableDataFileMetadataCacheKey.dataFileId history cache

theorem MetadataReader.loadMissing (reader : MetadataReader initial step rows history cache) {past : S}
    (read : past ∈ history.states) (readContext : Option Nat) (missing : List DataFileId) (found : FoundMetadata) :
    MetadataReader initial step rows history (loadMissingMetadata (rows past) readContext missing found cache).2 := by
  induction missing generalizing found cache with
  | nil => exact reader
  | cons requestedId rest ih =>
    unfold loadMissingMetadata
    split
    · exact reader
    · rename_i dataFile stored
      split
      · exact reader
      · have loaded : storedMetadata rows past requestedId = some dataFile.immutableMetadata := by
          rw [storedMetadata, stored]
          rfl
        have remembers : MetadataReader initial step rows history
            (cache.insert ⟨readContext, requestedId⟩ dataFile.immutableMetadata) := reader.remembers read loaded
        exact ih remembers _

/-- A batch remembers rows of the state it reads. -/
theorem MetadataReader.batch (reader : MetadataReader initial step rows history cache) {past : S}
    (read : past ∈ history.states) (readContext : Option Nat) (dataFileIds : List DataFileId) :
    MetadataReader initial step rows history
      (immutableDataFileMetadataBatch (rows past) cache readContext dataFileIds).2 :=
  reader.loadMissing read readContext _ _

/-- The metadata of a file does not change while its row exists, and every batch answers with it. -/
structure MetadataStaysTrue (rows : S → OrderedMap DataFileId DataFileRow) (history : History S)
    (cache : ImmutableDataFileMetadataCache) : Prop where
  unchanged : WriteOnce (storedMetadata rows) history
  answered : ∀ past ∈ history.states, ∀ readContext dataFileIds,
    (∀ dataFileId ∈ dataFileIds, ((rows past).get? dataFileId).isSome) →
      ∃ found, (immutableDataFileMetadataBatch (rows past) cache readContext dataFileIds).1 = .ok found
  stored : ∀ past ∈ history.states, ∀ readContext dataFileIds found,
    (immutableDataFileMetadataBatch (rows past) cache readContext dataFileIds).1 = .ok found →
      ∀ dataFileId ∈ dataFileIds, ∀ row, (rows past).get? dataFileId = some row →
        found.get? dataFileId = some row.immutableMetadata

theorem MetadataReader.staysTrue (reader : MetadataReader initial step rows history cache)
    (once : WriteOnce (storedMetadata rows) history)
    (named : ∀ state ∈ history.states, ∀ dataFileId row, (rows state).get? dataFileId = some row →
      row.dataFileId = dataFileId) : MetadataStaysTrue rows history cache where
  unchanged := once
  answered := by
    intro past member readContext dataFileIds exist
    refine immutableDataFileMetadataBatch_stored fun dataFileId listed => ?_
    obtain ⟨row, stored⟩ := Option.isSome_iff_exists.mp (exist dataFileId listed)
    exact ⟨row, stored, named past member dataFileId row stored⟩
  stored := by
    intro past member readContext dataFileIds found loads dataFileId listed row present
    have holds : storedMetadata rows past dataFileId = some row.immutableMetadata := by
      rw [storedMetadata, present]
      rfl
    rw [immutableDataFileMetadataBatch_ok loads listed, present]
    cases held : cache.find ⟨readContext, dataFileId⟩ with
    | none => rfl
    | some metadata =>
      rw [ReadThrough.find_eq reader once held member holds]
      rfl

end DucklakeCatalog
