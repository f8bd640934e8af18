import DucklakeCatalog.File.DataFileIndexes

namespace DucklakeCatalog

open KeyedStore

/-! ## Registering and listing -/

/-- A value that replaces a stored one takes the lookup entry of that one with it. -/
def stageRegisteredPartitionValue (kv : CatalogKv) (row : FilePartitionValueRow) :
    CatalogResult (FilePartitionValueRow × KvBatch) := do
  let dataFile ← loadDataFile kv row.dataFileId
  if dataFile.tableId ≠ row.tableId then
    .error (.invalidMutation s!"partition table {row.tableId} does not match data file table {dataFile.tableId}")
  else
    let batch : KvBatch := (kv.filePartitionValue.get? ⟨row.dataFileId, row.partitionKeyIndex⟩).elim {} fun existing =>
      { partitionValueLookup := ({} : Staged _ _).delete (partitionLookupKey existing) }
    return (row, stageFilePartitionValue batch row dataFile)

def registerFilePartitionValue (kv : CatalogKv) (row : FilePartitionValueRow) :
    CatalogResult FilePartitionValueRow × CatalogKv :=
  keepOnError kv do
    let (row, batch) ← stageRegisteredPartitionValue kv row
    return (row, kv.commit batch)

def listCurrentDataFilesByPartitionValue (kv : CatalogKv) (tableId : TableId) (partitionKeyIndex : PartitionKeyIndex)
    (partitionValue : String) : List DataFileRow :=
  ((kv.partitionValueLookup.scan fun key => key.tableId = tableId && key.partitionKeyIndex = partitionKeyIndex &&
      key.partitionValue = partitionValue).map fun entry => entry.2.2).filter fun row => row.validity.endOrder.isNone

def partitionedDataFileIds (kv : CatalogKv) (tableId : TableId) (partitionKeyIndex : PartitionKeyIndex) :
    List DataFileId :=
  (kv.partitionValueLookup.scan fun key => key.tableId = tableId && key.partitionKeyIndex = partitionKeyIndex).map
    fun entry => entry.2.2.dataFileId

/-- Current files in id order. -/
def currentDataFilesById (kv : CatalogKv) (tableId : TableId) : OrderedMap DataFileId DataFileRow :=
  OrderedMap.empty.insertAll DataFileRow.dataFileId (scanCurrentDataFiles kv tableId)

/-- Files without a value for the key may hold any row, so they stay in the scan. -/
def listCurrentDataFilesForPartitionScan (kv : CatalogKv) (tableId : TableId) (partitionKeyIndex : PartitionKeyIndex)
    (partitionValue : String) : List DataFileRow :=
  let matched := (listCurrentDataFilesByPartitionValue kv tableId partitionKeyIndex partitionValue).map
    DataFileRow.dataFileId
  let partitioned := partitionedDataFileIds kv tableId partitionKeyIndex
  ((currentDataFilesById kv tableId).entries.map Prod.snd).filter fun dataFile =>
    decide (dataFile.dataFileId ∈ matched) || decide (dataFile.dataFileId ∉ partitioned)

/-! ## The lookup entries and the rows they copy -/

/-- The maps behind a partition lookup. -/
structure PartitionIndexes where
  dataFile : OrderedMap DataFileId DataFileRow
  values : OrderedMap FilePartitionValueKey FilePartitionValueRow
  lookups : OrderedMap PartitionValueLookupKey (FilePartitionValueRow × DataFileRow)

def CatalogKv.partitionIndexes (kv : CatalogKv) : PartitionIndexes where
  dataFile := kv.dataFile
  values := kv.filePartitionValue
  lookups := kv.partitionValueLookup

def FilePartitionValueRow.valueKey (row : FilePartitionValueRow) : FilePartitionValueKey :=
  ⟨row.dataFileId, row.partitionKeyIndex⟩

namespace PartitionIndexes

/-- A lookup entry copies a stored value and its stored file, and every value of an open file has one. -/
structure Sound (indexes : PartitionIndexes) : Prop where
  value : ∀ {key row}, indexes.values.get? key = some row → row.valueKey = key
  table : ∀ {key row dataFile}, indexes.values.get? key = some row →
    indexes.dataFile.get? key.dataFileId = some dataFile → dataFile.tableId = row.tableId
  lookup : ∀ {key row dataFile}, indexes.lookups.get? key = some (row, dataFile) →
    key = partitionLookupKey row ∧ indexes.values.get? row.valueKey = some row ∧
      indexes.dataFile.get? row.dataFileId = some dataFile
  complete : ∀ {key row dataFile}, indexes.values.get? key = some row →
    indexes.dataFile.get? key.dataFileId = some dataFile → dataFile.validity.endOrder = none →
    indexes.lookups.get? (partitionLookupKey row) = some (row, dataFile)

variable {indexes next : PartitionIndexes}

section

variable (sound : indexes.Sound)

include sound

/-- A new data file, which has no value yet. -/
theorem Sound.append {row : DataFileRow}
    (unvalued : ∀ key stored, indexes.values.get? key = some stored → key.dataFileId ≠ row.dataFileId) :
    Sound { indexes with dataFile := indexes.dataFile.insert row.dataFileId row } where
  value := sound.value
  table := by
    intro key stored dataFile valued found
    rw [OrderedMap.get?_insert, if_neg (unvalued _ _ valued)] at found
    exact sound.table valued found
  lookup := by
    intro key stored dataFile found
    obtain ⟨named, valued, filed⟩ := sound.lookup found
    have different : stored.dataFileId ≠ row.dataFileId := unvalued _ _ valued
    refine ⟨named, valued, ?_⟩
    rw [OrderedMap.get?_insert, if_neg different]
    exact filed
  complete := by
    intro key stored dataFile valued found opened
    rw [OrderedMap.get?_insert, if_neg (unvalued _ _ valued)] at found
    exact sound.complete valued found opened

theorem Sound.appendAll {rows : List DataFileRow}
    (unvalued : ∀ key stored, indexes.values.get? key = some stored →
      key.dataFileId ∉ rows.map DataFileRow.dataFileId) :
    Sound { indexes with dataFile := indexes.dataFile.insertAll DataFileRow.dataFileId rows } := by
  induction rows generalizing indexes with
  | nil => exact sound
  | cons row rest ih =>
    have appended := sound.append fun key stored found same =>
      unvalued key stored found (same ▸ List.mem_cons_self)
    exact ih appended fun key stored found later => unvalued key stored found (List.mem_cons_of_mem _ later)

/-- A file that ends loses its lookup entries and keeps its values. -/
theorem Sound.expire {current ended : DataFileRow}
    (stored : indexes.dataFile.get? ended.dataFileId = some current) (sameTable : ended.tableId = current.tableId)
    (closed : ended.validity.endOrder ≠ none) (files : next.dataFile = indexes.dataFile.insert ended.dataFileId ended)
    (values : next.values = indexes.values)
    (lookups : ∀ key, next.lookups.get? key =
      if key.dataFileId = ended.dataFileId then none else indexes.lookups.get? key) : next.Sound where
  value := by
    intro key value found
    rw [values] at found
    exact sound.value found
  table := by
    intro key value dataFile valued found
    rw [values] at valued
    rw [files, OrderedMap.get?_insert] at found
    split at found
    · rename_i same
      obtain rfl := Option.some.inj found
      exact sameTable.trans (sound.table valued (same ▸ stored))
    · exact sound.table valued found
  lookup := by
    intro key value dataFile found
    rw [lookups] at found
    split at found
    · simp at found
    · rename_i different
      obtain ⟨rfl, valued, filed⟩ := sound.lookup found
      have other : value.dataFileId ≠ ended.dataFileId := different
      refine ⟨rfl, values ▸ valued, ?_⟩
      rw [files, OrderedMap.get?_insert, if_neg other]
      exact filed
  complete := by
    intro key value dataFile valued found opened
    rw [values] at valued
    rw [files, OrderedMap.get?_insert] at found
    split at found
    · obtain rfl := Option.some.inj found
      exact absurd opened closed
    · rename_i different
      have ofKey : value.dataFileId = key.dataFileId := congrArg FilePartitionValueKey.dataFileId (sound.value valued)
      have other : (partitionLookupKey value).dataFileId ≠ ended.dataFileId := fun same => different (ofKey.symm.trans same)
      rw [lookups, if_neg other]
      exact sound.complete valued found opened

/-- A removed file goes with its values and lookup entries. -/
theorem Sound.remove {dataFileId : DataFileId}
    (files : next.dataFile = indexes.dataFile.erase dataFileId)
    (values : ∀ key, next.values.get? key = if key.dataFileId = dataFileId then none else indexes.values.get? key)
    (lookups : ∀ key, next.lookups.get? key =
      if key.dataFileId = dataFileId then none else indexes.lookups.get? key) : next.Sound where
  value := by
    intro key value found
    rw [values] at found
    split at found
    · simp at found
    · exact sound.value found
  table := by
    intro key value dataFile valued found
    rw [values] at valued
    rw [files, OrderedMap.get?_erase] at found
    split at found
    · simp at found
    · rename_i different
      rw [if_neg different] at valued
      exact sound.table valued found
  lookup := by
    intro key value dataFile found
    rw [lookups] at found
    split at found
    · simp at found
    · rename_i different
      obtain ⟨rfl, valued, filed⟩ := sound.lookup found
      have other : value.dataFileId ≠ dataFileId := different
      refine ⟨rfl, ?_, ?_⟩
      · rw [values, if_neg (show value.valueKey.dataFileId ≠ dataFileId from other)]
        exact valued
      · rw [files, OrderedMap.get?_erase, if_neg other]
        exact filed
  complete := by
    intro key value dataFile valued found opened
    rw [values] at valued
    rw [files, OrderedMap.get?_erase] at found
    split at found
    · simp at found
    · rename_i different
      rw [if_neg different] at valued
      have ofKey : value.dataFileId = key.dataFileId := congrArg FilePartitionValueKey.dataFileId (sound.value valued)
      have other : (partitionLookupKey value).dataFileId ≠ dataFileId := fun same => different (ofKey.symm.trans same)
      rw [lookups, if_neg other]
      exact sound.complete valued found opened

/-- A value for a stored file, once the lookup entry of the value it replaces is gone. -/
theorem Sound.register {row : FilePartitionValueRow} {dataFile : DataFileRow}
    (stored : indexes.dataFile.get? row.dataFileId = some dataFile) (table : dataFile.tableId = row.tableId)
    (files : next.dataFile = indexes.dataFile) (values : next.values = indexes.values.insert row.valueKey row)
    (lookups : ∀ key, next.lookups.get? key =
      if key = partitionLookupKey row then some (row, dataFile)
      else if indexes.values.get? row.valueKey |>.any fun existing => key = partitionLookupKey existing then none
      else indexes.lookups.get? key) : next.Sound where
  value := by
    intro key value found
    rw [values, OrderedMap.get?_insert] at found
    split at found
    · rename_i same
      obtain rfl := Option.some.inj found
      exact same.symm
    · exact sound.value found
  table := by
    intro key value other valued found
    rw [files] at found
    rw [values, OrderedMap.get?_insert] at valued
    split at valued
    · rename_i same
      obtain rfl := Option.some.inj valued
      have ofKey : key.dataFileId = row.dataFileId := congrArg FilePartitionValueKey.dataFileId same
      rw [ofKey] at found
      obtain rfl := Option.some.inj (stored.symm.trans found)
      exact table
    · exact sound.table valued found
  lookup := by
    intro key value other found
    rw [lookups] at found
    split at found
    · rename_i same
      obtain ⟨rfl, rfl⟩ := Prod.mk.inj (Option.some.inj found)
      refine ⟨same, ?_, files ▸ stored⟩
      rw [values]
      exact OrderedMap.get?_insert_self _ _ _
    · split at found
      · simp at found
      · rename_i notReplaced
        obtain ⟨rfl, valued, filed⟩ := sound.lookup found
        refine ⟨rfl, ?_, files ▸ filed⟩
        have different : value.valueKey ≠ row.valueKey := by
          intro same
          rw [same] at valued
          simp [valued] at notReplaced
        rw [values, OrderedMap.get?_insert, if_neg different]
        exact valued
  complete := by
    intro key value other valued found opened
    rw [files] at found
    rw [values, OrderedMap.get?_insert] at valued
    rw [lookups]
    split at valued
    · rename_i same
      obtain rfl := Option.some.inj valued
      have ofKey : key.dataFileId = row.dataFileId := congrArg FilePartitionValueKey.dataFileId same
      rw [ofKey] at found
      obtain rfl := Option.some.inj (stored.symm.trans found)
      simp
    · rename_i different
      have ofValue := sound.value valued
      -- Another key of the same file has another lookup entry.
      have otherLookup (third : FilePartitionValueRow) (placed : third.valueKey = row.valueKey) :
          partitionLookupKey value ≠ partitionLookupKey third := by
        intro same
        simp only [partitionLookupKey, PartitionValueLookupKey.mk.injEq] at same
        refine different (ofValue.symm.trans (Eq.trans ?_ placed))
        rw [FilePartitionValueRow.valueKey, FilePartitionValueRow.valueKey, same.2.2.2, same.2.1]
      rw [if_neg (otherLookup row rfl), if_neg ?_]
      · exact sound.complete valued found opened
      · cases existing : indexes.values.get? row.valueKey with
        | none => simp
        | some third => simpa using otherLookup third (sound.value existing)

end

end PartitionIndexes

/-- What an accepted registration does to the store. -/
theorem stageRegisteredPartitionValue_commit {kv : CatalogKv} {row registered : FilePartitionValueRow} {batch : KvBatch}
    (staged : stageRegisteredPartitionValue kv row = .ok (registered, batch)) :
    ∃ dataFile, kv.dataFile.get? row.dataFileId = some dataFile ∧ dataFile.tableId = row.tableId ∧
      (kv.commit batch).dataFileIndexes = kv.dataFileIndexes ∧
      (kv.commit batch).filePartitionValue = kv.filePartitionValue.insert row.valueKey row ∧
      ∀ key, (kv.commit batch).partitionValueLookup.get? key =
        if key = partitionLookupKey row then some (row, dataFile)
        else if kv.filePartitionValue.get? row.valueKey |>.any fun existing => key = partitionLookupKey existing then none
        else kv.partitionValueLookup.get? key := by
  unfold stageRegisteredPartitionValue loadDataFile at staged
  rw [bind_eq_ok] at staged
  obtain ⟨dataFile, loads, staged⟩ := staged
  split at staged
  · simp at staged
  · rename_i sameTable
    simp only [pure_eq_ok, Prod.mk.injEq] at staged
    obtain ⟨_, rfl⟩ := staged
    have stored : kv.dataFile.get? row.dataFileId = some dataFile := by
      cases found : kv.dataFile.get? row.dataFileId with
      | none => simp [found] at loads
      | some other => simpa [found] using loads
    refine ⟨dataFile, stored, not_not.mp sameTable, ?_⟩
    cases existing : kv.filePartitionValue.get? row.valueKey with
    | none =>
      have noValue : kv.filePartitionValue.get? ⟨row.dataFileId, row.partitionKeyIndex⟩ = none := existing
      rw [noValue]
      refine ⟨rfl, ?_, ?_⟩
      · simp [CatalogKv.commit, stageFilePartitionValue, FilePartitionValueRow.valueKey]
      · intro key
        simp [CatalogKv.commit, stageFilePartitionValue, OrderedMap.get?_insert]
    | some value =>
      have hasValue : kv.filePartitionValue.get? ⟨row.dataFileId, row.partitionKeyIndex⟩ = some value := existing
      rw [hasValue]
      refine ⟨rfl, ?_, ?_⟩
      · simp [CatalogKv.commit, stageFilePartitionValue, FilePartitionValueRow.valueKey]
      · intro key
        have inserted : (kv.commit (stageFilePartitionValue
            { partitionValueLookup := ({} : Staged _ _).delete (partitionLookupKey value) } row dataFile)).partitionValueLookup =
            (kv.partitionValueLookup.erase (partitionLookupKey value)).insert (partitionLookupKey row) (row, dataFile) := by
          simp [CatalogKv.commit, stageFilePartitionValue, OrderedMap.commit_delete _ _ _ Staged.not_writes_empty]
        rw [Option.elim_some, inserted, OrderedMap.get?_insert, OrderedMap.get?_erase, Option.any_some]
        by_cases added : key = partitionLookupKey row
        · rw [if_pos added, if_pos added]
        · rw [if_neg added, if_neg added]
          by_cases replaced : key = partitionLookupKey value
          · rw [if_pos replaced, if_pos (decide_eq_true replaced)]
          · rw [if_neg replaced, if_neg fun same => replaced (of_decide_eq_true same)]

/-! ## What the listings return -/

/-- The stored value of the file for the key is the one asked for. -/
def holdsPartitionValue (kv : CatalogKv) (partitionKeyIndex : PartitionKeyIndex) (partitionValue : String)
    (row : DataFileRow) : Bool :=
  (kv.filePartitionValue.get? ⟨row.dataFileId, partitionKeyIndex⟩).any fun value =>
    value.partitionValue = partitionValue

/-- The lookups list exactly the current files that hold the value, and a partition scan leaves out a current file
only for another value. -/
def PartitionLookupsCoherent (kv : CatalogKv) : Prop :=
  ∀ tableId partitionKeyIndex partitionValue,
    listCurrentDataFilesByPartitionValue kv tableId partitionKeyIndex partitionValue =
        (scanCurrentDataFiles kv tableId).filter (holdsPartitionValue kv partitionKeyIndex partitionValue) ∧
      ∀ row ∈ scanCurrentDataFiles kv tableId,
        row ∉ listCurrentDataFilesForPartitionScan kv tableId partitionKeyIndex partitionValue →
        ∃ value, kv.filePartitionValue.get? ⟨row.dataFileId, partitionKeyIndex⟩ = some value ∧
          value.partitionValue ≠ partitionValue

instance : Std.Irrefl fun left right : DataFileRow => left.dataFileId < right.dataFileId := ⟨fun _ => lt_irrefl _⟩

instance : Std.Antisymm fun left right : DataFileRow => left.dataFileId < right.dataFileId :=
  ⟨fun _ _ below above => absurd (below.trans above) (lt_irrefl _)⟩

section

variable {kv : CatalogKv} {tableId : TableId} {partitionKeyIndex : PartitionKeyIndex} {partitionValue : String}
  {row : DataFileRow}

theorem mem_scanCurrentDataFiles (coherent : kv.dataFileIndexes.Coherent) :
    row ∈ scanCurrentDataFiles kv tableId ↔
      kv.dataFile.get? row.dataFileId = some row ∧ row.tableId = tableId ∧ row.validity.endOrder = none := by
  simp only [scanCurrentDataFiles, List.mem_filter, List.mem_map, Option.isNone_iff_eq_none]
  constructor
  · rintro ⟨⟨⟨key, stored⟩, scanned, rfl⟩, opened⟩
    obtain ⟨found, ofTable⟩ := OrderedMap.mem_scan.mp scanned
    obtain ⟨primary, table, _⟩ := coherent.current.mp found
    have named := coherent.named primary
    exact ⟨named ▸ primary, table.trans (of_decide_eq_true ofTable), opened⟩
  · rintro ⟨primary, table, opened⟩
    exact ⟨⟨(⟨tableId, row.dataFileId⟩, row), OrderedMap.mem_scan.mpr
      ⟨coherent.current.mpr ⟨primary, table, opened⟩, decide_eq_true rfl⟩, rfl⟩, opened⟩

theorem scanCurrentDataFiles_sorted (coherent : kv.dataFileIndexes.Coherent) (tableId : TableId) :
    (scanCurrentDataFiles kv tableId).Pairwise fun left right => left.dataFileId < right.dataFileId := by
  refine List.Pairwise.filter _ (List.pairwise_map.mpr ?_)
  refine List.Pairwise.imp_of_mem ?_ (kv.currentDataFile.scan_sorted _)
  intro left right leftMember rightMember below
  obtain ⟨leftFound, leftTable⟩ := OrderedMap.mem_scan.mp leftMember
  obtain ⟨rightFound, rightTable⟩ := OrderedMap.mem_scan.mp rightMember
  rw [coherent.named (coherent.current.mp leftFound).1, coherent.named (coherent.current.mp rightFound).1]
  exact TableFileKey.dataFileId_lt ((of_decide_eq_true leftTable).trans (of_decide_eq_true rightTable).symm) below

theorem mem_listCurrentDataFilesByPartitionValue (sound : kv.partitionIndexes.Sound)
    (coherent : kv.dataFileIndexes.Coherent) :
    row ∈ listCurrentDataFilesByPartitionValue kv tableId partitionKeyIndex partitionValue ↔
      row ∈ scanCurrentDataFiles kv tableId ∧ holdsPartitionValue kv partitionKeyIndex partitionValue row := by
  rw [mem_scanCurrentDataFiles coherent]
  simp only [listCurrentDataFilesByPartitionValue, List.mem_filter, List.mem_map, Option.isNone_iff_eq_none]
  constructor
  · rintro ⟨⟨⟨key, value, stored⟩, scanned, rfl⟩, opened⟩
    obtain ⟨found, inRange⟩ := OrderedMap.mem_scan.mp scanned
    simp only [Bool.and_eq_true, decide_eq_true_eq] at inRange
    obtain ⟨rfl, valued, filed⟩ := sound.lookup found
    have named : stored.dataFileId = value.dataFileId := coherent.named filed
    obtain ⟨⟨table, index⟩, sameValue⟩ := inRange
    refine ⟨⟨named ▸ filed, (sound.table valued filed).trans table, opened⟩, ?_⟩
    have valuedHere : kv.filePartitionValue.get? ⟨stored.dataFileId, partitionKeyIndex⟩ = some value := by
      rw [named, ← index]
      exact valued
    rw [holdsPartitionValue, valuedHere]
    exact decide_eq_true sameValue
  · rintro ⟨⟨filed, table, opened⟩, holds⟩
    cases valued : kv.filePartitionValue.get? ⟨row.dataFileId, partitionKeyIndex⟩ with
    | none => simp [holdsPartitionValue, valued] at holds
    | some value =>
      have same : value.partitionValue = partitionValue := by simpa [holdsPartitionValue, valued] using holds
      have placed : (⟨value.dataFileId, value.partitionKeyIndex⟩ : FilePartitionValueKey) =
        ⟨row.dataFileId, partitionKeyIndex⟩ := sound.value valued
      rw [FilePartitionValueKey.mk.injEq] at placed
      have ofTable : value.tableId = tableId := (sound.table valued filed).symm.trans table
      refine ⟨⟨(partitionLookupKey value, value, row), OrderedMap.mem_scan.mpr
        ⟨sound.complete valued filed opened, ?_⟩, rfl⟩, opened⟩
      simp only [partitionLookupKey, Bool.and_eq_true]
      exact ⟨⟨decide_eq_true ofTable, decide_eq_true placed.2⟩, decide_eq_true same⟩

theorem listCurrentDataFilesByPartitionValue_sorted (sound : kv.partitionIndexes.Sound)
    (coherent : kv.dataFileIndexes.Coherent) :
    (listCurrentDataFilesByPartitionValue kv tableId partitionKeyIndex partitionValue).Pairwise
      fun left right => left.dataFileId < right.dataFileId := by
  refine List.Pairwise.filter _ (List.pairwise_map.mpr ?_)
  refine List.Pairwise.imp_of_mem ?_ (kv.partitionValueLookup.scan_sorted _)
  intro left right leftMember rightMember below
  obtain ⟨leftFound, leftRange⟩ := OrderedMap.mem_scan.mp leftMember
  obtain ⟨rightFound, rightRange⟩ := OrderedMap.mem_scan.mp rightMember
  simp only [Bool.and_eq_true, decide_eq_true_eq] at leftRange rightRange
  obtain ⟨leftKey, _, leftFile⟩ := sound.lookup leftFound
  obtain ⟨rightKey, _, rightFile⟩ := sound.lookup rightFound
  rw [coherent.named leftFile, coherent.named rightFile]
  have ordered := PartitionValueLookupKey.dataFileId_lt (leftRange.1.1.trans rightRange.1.1.symm)
    (leftRange.1.2.trans rightRange.1.2.symm) (leftRange.2.trans rightRange.2.symm) below
  rw [leftKey, rightKey] at ordered
  exact ordered

theorem PartitionIndexes.Sound.lookupsCoherent (sound : kv.partitionIndexes.Sound)
    (coherent : kv.dataFileIndexes.Coherent) : PartitionLookupsCoherent kv := by
  intro tableId partitionKeyIndex partitionValue
  have members (row : DataFileRow) :
      row ∈ listCurrentDataFilesByPartitionValue kv tableId partitionKeyIndex partitionValue ↔
        row ∈ scanCurrentDataFiles kv tableId ∧ holdsPartitionValue kv partitionKeyIndex partitionValue row :=
    mem_listCurrentDataFilesByPartitionValue sound coherent
  refine ⟨?_, ?_⟩
  · refine List.Pairwise.eq_of_mem_iff (listCurrentDataFilesByPartitionValue_sorted sound coherent)
      (List.Pairwise.filter _ (scanCurrentDataFiles_sorted coherent tableId)) ?_
    intro row
    rw [members, List.mem_filter]
  · intro row current omitted
    obtain ⟨filed, table, opened⟩ := (mem_scanCurrentDataFiles coherent).mp current
    have byId : row ∈ (currentDataFilesById kv tableId).entries.map Prod.snd := by
      refine List.mem_map.mpr ⟨(row.dataFileId, row), (OrderedMap.get?_eq_some_iff _).mp ?_, rfl⟩
      refine (OrderedMap.get?_insertAll_of_agree _ _ ?_).mpr (Or.inl ⟨current, rfl⟩)
      intro left leftCurrent right rightCurrent sameId
      have leftFiled := ((mem_scanCurrentDataFiles coherent).mp leftCurrent).1
      have rightFiled := ((mem_scanCurrentDataFiles coherent).mp rightCurrent).1
      rw [sameId] at leftFiled
      exact Option.some.inj (leftFiled.symm.trans rightFiled)
    have unmatched : ¬(row.dataFileId ∈ (listCurrentDataFilesByPartitionValue kv tableId partitionKeyIndex
        partitionValue).map DataFileRow.dataFileId ∨
        row.dataFileId ∉ partitionedDataFileIds kv tableId partitionKeyIndex) := by
      intro included
      refine omitted (List.mem_filter.mpr ⟨byId, ?_⟩)
      simpa using included
    push Not at unmatched
    obtain ⟨notMatched, partitioned⟩ := unmatched
    obtain ⟨⟨key, value, stored⟩, scanned, sameId⟩ := List.mem_map.mp partitioned
    obtain ⟨found, inRange⟩ := OrderedMap.mem_scan.mp scanned
    simp only [Bool.and_eq_true, decide_eq_true_eq] at inRange
    obtain ⟨rfl, valued, storedFile⟩ := sound.lookup found
    have named : stored.dataFileId = value.dataFileId := coherent.named storedFile
    have valuedHere : kv.filePartitionValue.get? ⟨row.dataFileId, partitionKeyIndex⟩ = some value := by
      have ids : row.dataFileId = value.dataFileId := sameId.symm.trans named
      rw [ids, ← inRange.2]
      exact valued
    refine ⟨value, valuedHere, ?_⟩
    intro same
    refine notMatched (List.mem_map.mpr ⟨row, (members row).mpr ⟨current, ?_⟩, rfl⟩)
    rw [holdsPartitionValue, valuedHere]
    exact decide_eq_true same

end

end DucklakeCatalog
