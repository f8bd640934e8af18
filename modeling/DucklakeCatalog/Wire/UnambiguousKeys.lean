import DucklakeCatalog.Wire.KeyListings

/-! No two keys of the catalog are confused: not with each other, not by a listing, not by a
scan up to an order. -/
namespace DucklakeCatalog.Wire

open ByteCodec KeyedStore

/-! ## Prefixes -/

theorem toLower_idem (letter : Char) : letter.toLower.toLower = letter.toLower := by
  by_cases upper : letter.val ≥ 'A'.val ∧ letter.val ≤ 'Z'.val
  · have lowered : letter.toLower.val = letter.val + ('a'.val - 'A'.val) := by
      delta Char.toLower
      rw [dif_pos upper]
    have least : 65 ≤ letter.val.toNat := UInt32.le_iff_toNat_le.mp upper.1
    have most : letter.val.toNat ≤ 90 := UInt32.le_iff_toNat_le.mp upper.2
    have value : letter.toLower.val.toNat = letter.val.toNat + 32 := by
      rw [lowered, UInt32.toNat_add]
      change (letter.val.toNat + 32) % 2 ^ 32 = _
      omega
    have other : ¬ (letter.toLower.val ≥ 'A'.val ∧ letter.toLower.val ≤ 'Z'.val) := by
      intro again
      have bound : letter.toLower.val.toNat ≤ 90 := UInt32.le_iff_toNat_le.mp again.2
      omega
    exact dif_neg other
  · have same : letter.toLower = letter := dif_neg upper
    rw [same, same]

theorem toAsciiLowercase_idem (name : String) : toAsciiLowercase (toAsciiLowercase name) = toAsciiLowercase name := by
  have letters : Char.toLower ∘ Char.toLower = Char.toLower := funext toLower_idem
  rw [toAsciiLowercase, toAsciiLowercase, String.map_map, letters]

theorem LogicalKey.bytes_canonical (catalog : UInt64) (key : LogicalKey) :
    key.canonical.bytes catalog = key.bytes catalog := by
  cases key with
  | currentTableName schemaId name =>
    simp only [canonical, bytes, currentTableNameKey, toAsciiLowercase_idem]
  | _ => rfl

variable {other : UInt64} {key : LogicalKey}

theorem LogicalKey.bytes_eq_iff {catalog : UInt64} {left right : LogicalKey} (leftFits : left.Fits)
    (rightFits : right.Fits) :
    left.bytes catalog = right.bytes other ↔ catalog = other ∧ left.canonical = right.canonical := by
  constructor
  · intro same
    have read := left.parse_bytes catalog leftFits
    rw [same, right.parse_bytes other rightFits] at read
    obtain ⟨sameCatalog, sameKey⟩ := Prod.mk.inj (Except.ok.inj read)
    exact ⟨sameCatalog.symm, sameKey.symm⟩
  · rintro ⟨rfl, same⟩
    rw [← left.bytes_canonical, same, right.bytes_canonical]

theorem ListingPrefix.prefix_iff {catalog other : UInt64} {listing : ListingPrefix} {key : LogicalKey}
    (fits : listing.Fits) (keyFits : key.Fits) :
    listing.bytes catalog <+: key.bytes other ↔ catalog = other ∧ listing ∈ key.listings := by
  constructor
  · rintro ⟨rest, same⟩
    have read := key.parse_bytes other keyFits
    rw [← same] at read
    cases family : listing.inFamily with
    | none =>
      have whole : listing = .catalog := by cases listing <;> first | rfl | cases family
      subst whole
      rw [bytes, parse_catalogPrefix] at read
      have first : Yields (fun read : UInt64 × LogicalKey => read.1 = catalog)
          (andThen readFamily fun family => thenSep fun body => (parseBody family body).map (catalog, ·)) := by
        refine .andThen fun family => .expect fun body found parsed => ?_
        obtain ⟨key, -, rfl⟩ := map_eq_ok.mp parsed
        rfl
      exact ⟨(first _ _ read).symm, List.mem_cons_self ..⟩
    | some keyFamily =>
      rw [listing.bytes_eq catalog family, List.append_assoc, parse_familyPrefix] at read
      obtain ⟨found, parsed, pair⟩ := map_eq_ok.mp read
      cases pair
      have member : listing ∈ key.canonical.listings := listing.yields fits family rest _ parsed
      rw [key.listings_canonical] at member
      exact ⟨rfl, member⟩
  · rintro ⟨rfl, member⟩
    exact key.prefix_of_listing catalog member

/-! ## Listings -/

theorem length_familyPrefix (catalog : UInt64) (family : KeyFamily) : (familyPrefix catalog family).length = 11 := by
  simp [familyPrefix, catalogPrefix]

/-- All prefixes but one end with a separator. -/
theorem ListingPrefix.bytes_concat (catalog : UInt64) {listing : ListingPrefix}
    (other : ∀ dataFileId, listing ≠ .fileColumnStatsDataFile dataFileId) :
    ∃ front, listing.bytes catalog = front ++ [sep] := by
  cases listing with
  | fileColumnStatsDataFile dataFileId => exact absurd rfl (other dataFileId)
  | family keyFamily => exact ⟨catalogPrefix catalog ++ [keyFamily.code], by simp [bytes, familyPrefix]⟩
  | schemaVersionHistory =>
    have text : utf8 "schema-version-history/" = utf8 "schema-version-history" ++ [sep] := rfl
    exact ⟨_, by rw [bytes, schemaVersionHistoryPrefix, text, ← List.append_assoc]⟩
  | scheduledDataFileCleanup =>
    exact ⟨familyPrefix catalog .scheduledCleanup ++ [asciiByte 'd'], by
      simp [bytes, scheduledDataFileCleanupPrefix, scheduledCleanupPrefix]⟩
  | scheduledDeleteFileCleanup =>
    exact ⟨familyPrefix catalog .scheduledCleanup ++ [asciiByte 'x'], by
      simp [bytes, scheduledDeleteFileCleanupPrefix, scheduledCleanupPrefix]⟩
  | tableObjectScan =>
    exact ⟨familyPrefix catalog .object ++ [asciiByte 't'], by simp [bytes, tableObjectScanPrefix, objectScanPrefix]⟩
  | schemaObjectScan =>
    exact ⟨familyPrefix catalog .object ++ [asciiByte 's'], by simp [bytes, schemaObjectScanPrefix, objectScanPrefix]⟩
  | viewObjectScan =>
    exact ⟨familyPrefix catalog .object ++ [asciiByte 'v'], by simp [bytes, viewObjectScanPrefix, objectScanPrefix]⟩
  | macroObjectScan =>
    exact ⟨familyPrefix catalog .object ++ [asciiByte 'm'], by simp [bytes, macroObjectScanPrefix, objectScanPrefix]⟩
  | currentTableRow =>
    exact ⟨familyPrefix catalog .object ++ [asciiByte 'T'], by simp [bytes, currentTableRowPrefix, objectScanPrefix]⟩
  | tableVisibility =>
    exact ⟨familyPrefix catalog .object ++ [asciiByte 'V'], by simp [bytes, tableVisibilityPrefix]⟩
  | _ => exact ⟨_, rfl⟩

/-- The ids of files with statistics may be full, so that the end of their listing carries
into the separator behind the family; no key continues that. -/
theorem fileColumnStats_between_iff {catalog : UInt64} (dataFileId : UInt64) (keyFits : key.Fits) :
    (fileColumnStatsDataFilePrefix catalog dataFileId ≤ key.bytes other ∧
      key.bytes other < prefixEnd (fileColumnStatsDataFilePrefix catalog dataFileId)) ↔
      fileColumnStatsDataFilePrefix catalog dataFileId <+: key.bytes other := by
  have shape : fileColumnStatsDataFilePrefix catalog dataFileId =
      (catalogPrefix catalog ++ [KeyFamily.fileColumnStats.code]) ++ [sep] ++ u64Bytes dataFileId := by
    simp [fileColumnStatsDataFilePrefix, familyPrefix]
  have counted : ∃ next, countUp (fileColumnStatsDataFilePrefix catalog dataFileId).reverse = some next := by
    rw [shape, List.reverse_append, countUp_append, List.reverse_append, List.reverse_singleton,
      List.singleton_append, countUp, if_pos (by decide)]
    cases countUp (u64Bytes dataFileId).reverse with
    | some next
    | none => exact ⟨_, rfl⟩
  obtain ⟨next, counted⟩ := counted
  have long (inside : familyPrefix catalog .fileColumnStats <+: key.bytes other) :
      (fileColumnStatsDataFilePrefix catalog dataFileId).length ≤ (key.bytes other).length := by
    have member := ((@ListingPrefix.prefix_iff catalog other (.family .fileColumnStats) key trivial keyFits).mp inside).2
    have family : key.family = .fileColumnStats := by
      rw [LogicalKey.listings, List.mem_cons, List.mem_cons] at member
      rcases member with none | same | within
      · cases none
      · exact (ListingPrefix.family.inj same).symm
      · have outside := key.inFamily_within _ within
        exact (Option.some.inj outside).symm
    cases key <;> cases family
    simp [LogicalKey.bytes, fileColumnStatsKey, fileColumnStatsDataFilePrefix, length_familyPrefix]
  constructor
  · intro between
    have decided : familyPrefix catalog .fileColumnStats <+: key.bytes other := by
      have either := between
      rw [shape] at either
      rcases prefix_or_succ_of_between (by decide) either.1 either.2 with inside | ⟨rest, carried⟩
      · rwa [List.append_assoc] at inside
      · have separator : (key.bytes other)[10]? = some sep := by
          rw [key.bytes_eq, List.getElem?_append_left (by rw [length_familyPrefix]; decide)]
          simp [familyPrefix, catalogPrefix]
        have front : (catalogPrefix catalog ++ [KeyFamily.fileColumnStats.code]).length = 10 := by simp [catalogPrefix]
        rw [← carried, List.append_assoc, List.getElem?_append_right front.le, front] at separator
        exact absurd (Option.some.inj separator) (by decide)
    exact (between_prefixEnd_iff counted (long decided)).mp between
  · intro begins
    exact (between_prefixEnd_iff counted begins.length_le).mpr begins

/-- A scan from a prefix to its end finds the keys of that listing. -/
theorem ListingPrefix.between_iff {catalog : UInt64} {listing : ListingPrefix}
    (fits : listing.Fits) (keyFits : key.Fits) :
    (listing.bytes catalog ≤ key.bytes other ∧ key.bytes other < prefixEnd (listing.bytes catalog)) ↔
      catalog = other ∧ listing ∈ key.listings := by
  rw [← listing.prefix_iff fits keyFits]
  by_cases stats : ∃ dataFileId, listing = .fileColumnStatsDataFile dataFileId
  · obtain ⟨dataFileId, rfl⟩ := stats
    exact fileColumnStats_between_iff dataFileId keyFits
  · obtain ⟨front, shape⟩ := listing.bytes_concat catalog (not_exists.mp stats)
    rw [shape]
    exact between_prefixEnd_concat_iff (by decide) _

/-! ## Orders -/

namespace OrderIndex

theorem scanEnd_eq (catalog : UInt64) (order : CatalogOrderId) (index : OrderIndex) :
    index.scanEnd catalog order = index.listing.bytes catalog ++ (order.asBytes ++ [0xff]) := by
  cases index <;> exact List.append_assoc ..

variable {order held : CatalogOrderId} {index : OrderIndex}

theorem scanStart_eq {catalog : UInt64} {start : Bytes}
    (found : index.scanStart catalog order = some start) : start = index.listing.bytes catalog ++ order.asBytes := by
  cases index <;> cases found <;> rfl

theorem listing_fits (index : OrderIndex) : index.listing.Fits := by
  cases index <;> trivial

theorem listing_mem_iff (index : OrderIndex) (key : LogicalKey) :
    index.listing ∈ key.listings ↔ ∃ held, index.orderOf key = some held := by
  cases key <;> cases index <;>
  simp [LogicalKey.listings, LogicalKey.within, LogicalKey.family, listing, orderOf, eq_comm]

theorem ite_some {condition : Prop} [Decidable condition]
    (found : (if condition then some order else none) = some held) : condition ∧ order = held := by
  by_cases holds : condition
  · rw [if_pos holds] at found
    exact ⟨holds, Option.some.inj found⟩
  · rw [if_neg holds] at found
    cases found

/-- An entry is its listing's prefix, its order, and at most a separator and the rest behind it. -/
theorem entry_bytes (entry : index.orderOf key = some held) (catalog : UInt64) :
    ∃ rest, rest < [0xff] ∧ key.bytes catalog = index.listing.bytes catalog ++ (held.asBytes ++ rest) := by
  have separated {order : CatalogOrderId} {rest : Bytes}
      (shape : key.bytes catalog = index.listing.bytes catalog ++ (order.asBytes ++ ([sep] ++ rest))) :
      ∃ rest, rest < [0xff] ∧ key.bytes catalog = index.listing.bytes catalog ++ (order.asBytes ++ rest) :=
    ⟨[sep] ++ rest, List.cons_lt_cons_iff.mpr (Or.inl (by decide)), shape⟩
  cases index
  case schemaVersionHistory =>
    cases key <;> cases entry
    exact ⟨[], by decide, by simp [LogicalKey.bytes, listing, ListingPrefix.bytes, schemaVersionHistoryKey]⟩
  case tableVisibility =>
    cases key <;> cases entry
    apply separated
    simp only [LogicalKey.bytes, listing, ListingPrefix.bytes, tableVisibilityKey, List.append_assoc]
    rfl
  case orderDeleteFileChange =>
    cases key <;> cases entry
    apply separated
    simp only [LogicalKey.bytes, listing, ListingPrefix.bytes, orderDeleteFileChangeKey, orderDeleteFileChangePrefix,
      List.append_assoc]
    rfl
  case dataFileBegin tableId =>
    cases key <;> try cases entry
    obtain ⟨rfl, rfl⟩ := ite_some entry
    apply separated
    simp only [LogicalKey.bytes, listing, ListingPrefix.bytes, dataFileBeginKey, dataFileBeginPrefix, List.append_assoc]
    rfl
  case deleteFileTimeline dataFileId =>
    cases key <;> try cases entry
    obtain ⟨rfl, rfl⟩ := ite_some entry
    apply separated
    simp only [LogicalKey.bytes, listing, ListingPrefix.bytes, deleteFileTimelineKey, List.append_assoc]
    rfl
  case tableDataFileChange tableId =>
    cases key <;> try cases entry
    obtain ⟨rfl, rfl⟩ := ite_some entry
    apply separated
    simp only [LogicalKey.bytes, listing, ListingPrefix.bytes, tableDataFileChangeKey, List.append_assoc]
    rfl
  case tableDeleteFileChange tableId =>
    cases key <;> try cases entry
    obtain ⟨rfl, rfl⟩ := ite_some entry
    apply separated
    simp only [LogicalKey.bytes, listing, ListingPrefix.bytes, tableDeleteFileChangeKey, List.append_assoc]
    rfl
  case tableInlineRowChange tableId =>
    cases key <;> try cases entry
    obtain ⟨rfl, rfl⟩ := ite_some entry
    apply separated
    simp only [LogicalKey.bytes, listing, ListingPrefix.bytes, tableInlineRowChangeKey, List.append_assoc]
    rfl
  case tableSchemaKindInlineRowChange tableId schemaId kind =>
    cases key <;> try cases entry
    obtain ⟨⟨rfl, rfl, rfl⟩, rfl⟩ := ite_some entry
    apply separated
    simp only [LogicalKey.bytes, listing, ListingPrefix.bytes, tableSchemaKindInlineRowChangeKey, List.append_assoc]
    rfl

theorem scan_front {catalog : UInt64} (keyFits : key.Fits) (above : index.listing.bytes catalog ≤ key.bytes other)
    (below : key.bytes other < index.scanEnd catalog order) :
    catalog = other ∧ ∃ held, index.orderOf key = some held := by
  rw [scanEnd_eq] at below
  have begins := prefix_of_between above below
  rwa [ListingPrefix.prefix_iff index.listing_fits keyFits, listing_mem_iff] at begins

theorem lt_scanEnd_iff (entry : index.orderOf key = some held) (catalog : UInt64) (order : CatalogOrderId) :
    key.bytes catalog < index.scanEnd catalog order ↔ held ≤ order := by
  obtain ⟨rest, small, shape⟩ := entry_bytes entry catalog
  have sameLength : held.asBytes.length = order.asBytes.length := by simp
  rw [scanEnd_eq, shape, append_lt_append_left_iff, append_lt_append_iff sameLength, CatalogOrderId.le_iff,
    le_iff_lt_or_eq]
  simp [small]

/-- The entries up to an order are those that a scan to its end finds. -/
theorem scan_iff {catalog : UInt64} (keyFits : key.Fits) (order : CatalogOrderId) :
    (index.listing.bytes catalog ≤ key.bytes other ∧ key.bytes other < index.scanEnd catalog order) ↔
      catalog = other ∧ ∃ held, index.orderOf key = some held ∧ held ≤ order := by
  constructor
  · intro between
    obtain ⟨rfl, held, entry⟩ := scan_front keyFits between.1 between.2
    exact ⟨rfl, held, entry, (lt_scanEnd_iff entry catalog order).mp between.2⟩
  · rintro ⟨rfl, held, entry, early⟩
    have begins := key.prefix_of_listing catalog ((index.listing_mem_iff key).mpr ⟨held, entry⟩)
    obtain ⟨rest, shape⟩ := begins
    exact ⟨shape ▸ le_append_self _ rest, (lt_scanEnd_iff entry catalog order).mpr early⟩

theorem window_iff {catalog : UInt64} (keyFits : key.Fits)
    {startOrder : CatalogOrderId} {start : Bytes} (found : index.scanStart catalog startOrder = some start)
    (endOrder : CatalogOrderId) :
    (start ≤ key.bytes other ∧ key.bytes other < index.scanEnd catalog endOrder) ↔
      catalog = other ∧ ∃ held, index.orderOf key = some held ∧ startOrder ≤ held ∧ held ≤ endOrder := by
  have starts (held : CatalogOrderId) (entry : index.orderOf key = some held) :
      start ≤ key.bytes catalog ↔ startOrder ≤ held := by
    obtain ⟨rest, -, shape⟩ := entry_bytes entry catalog
    have sameLength : startOrder.asBytes.length ≤ held.asBytes.length := by simp
    rw [scanStart_eq found, shape, append_le_append_left_iff, le_append_iff sameLength, CatalogOrderId.le_iff]
  constructor
  · intro between
    have above : index.listing.bytes catalog ≤ key.bytes other := by
      rw [scanStart_eq found] at between
      exact (le_append_self _ _).trans between.1
    obtain ⟨rfl, held, entry⟩ := scan_front keyFits above between.2
    exact ⟨rfl, held, entry, (starts held entry).mp between.1, (lt_scanEnd_iff entry catalog endOrder).mp between.2⟩
  · rintro ⟨rfl, held, entry, late, early⟩
    exact ⟨(starts held entry).mpr late, (lt_scanEnd_iff entry catalog endOrder).mpr early⟩

end OrderIndex

/-! ## Timestamps -/

/-- The sign bit of a word is flipped by adding it. -/
theorem xor_signBit {word : Nat} (small : word < 2 ^ 64) : word ^^^ 2 ^ 63 = (word + 2 ^ 63) % 2 ^ 64 := by
  by_cases low : word < 2 ^ 63
  · have sum : (word + 2 ^ 63) % 2 ^ 64 = 2 ^ 63 + word := by omega
    rw [sum]
    have joined := Nat.two_pow_add_eq_or_of_lt low 1
    rw [Nat.mul_one] at joined
    rw [joined, Nat.or_comm]
    apply Nat.eq_of_testBit_eq
    intro bit
    by_cases top : bit = 63
    · subst top
      simp [Nat.testBit_lt_two_pow low]
    · have absent : Nat.testBit (2 ^ 63) bit = false := Nat.testBit_two_pow_of_ne (Ne.symm top)
      simp only [Nat.testBit_xor, Nat.testBit_or, absent, Bool.xor_false, Bool.or_false]
  · obtain ⟨rest, rfl⟩ : ∃ rest, word = 2 ^ 63 + rest := ⟨word - 2 ^ 63, by omega⟩
    have lowRest : rest < 2 ^ 63 := by omega
    have sum : (2 ^ 63 + rest + 2 ^ 63) % 2 ^ 64 = rest := by omega
    have joined := Nat.two_pow_add_eq_or_of_lt lowRest 1
    rw [Nat.mul_one] at joined
    rw [sum, joined]
    apply Nat.eq_of_testBit_eq
    intro bit
    by_cases top : bit = 63
    · subst top
      simp [Nat.testBit_lt_two_pow lowRest]
    · have absent : Nat.testBit (2 ^ 63) bit = false := Nat.testBit_two_pow_of_ne (Ne.symm top)
      simp only [Nat.testBit_xor, Nat.testBit_or, absent, Bool.xor_false, Bool.false_or]

theorem toNat_sortable (value : Int64) : ((value ^^^ Int64.minValue).toUInt64.toNat : Int) = value.toInt + 2 ^ 63 := by
  have word : (value ^^^ Int64.minValue).toUInt64.toNat = value.toBitVec.toNat ^^^ 2 ^ 63 := rfl
  have signed : value.toInt = value.toBitVec.toInt := rfl
  have small := value.toBitVec.isLt
  rw [word, xor_signBit small, signed, BitVec.toInt_eq_toNat_cond]
  split <;> omega

theorem u64Bytes_lt_iff (left right : UInt64) : u64Bytes left < u64Bytes right ↔ left.toNat < right.toNat := by
  have leftSmall : left.toNat < 256 ^ 8 := left.toNat_lt
  have rightSmall : right.toNat < 256 ^ 8 := right.toNat_lt
  rw [u64Bytes, u64Bytes, beBytes_lt_iff, Nat.mod_eq_of_lt leftSmall, Nat.mod_eq_of_lt rightSmall]

theorem sortableI64_lt_iff (left right : Int64) : sortableI64 left < sortableI64 right ↔ left < right := by
  have leftValue := toNat_sortable left
  have rightValue := toNat_sortable right
  rw [sortableI64, sortableI64, u64Bytes_lt_iff, Int64.lt_iff_toInt_lt]
  omega

theorem snapshotTimestampKey_lt_iff (catalog : UInt64) (left right : Int64) (leftOrder rightOrder : CatalogOrderId) :
    snapshotTimestampKey catalog left leftOrder < snapshotTimestampKey catalog right rightOrder ↔
      left < right ∨ left = right ∧ leftOrder < rightOrder := by
  have sameLength : (sortableI64 left).length = (sortableI64 right).length := by simp
  have same : sortableI64 left = sortableI64 right ↔ left = right := by
    constructor
    · intro equal
      have notBelow : ¬ left < right := fun below => ((sortableI64_lt_iff left right).mpr below).ne equal
      have notAbove : ¬ right < left := fun above => ((sortableI64_lt_iff right left).mpr above).ne' equal
      rw [Int64.lt_iff_toInt_lt, not_lt] at notBelow notAbove
      exact Int64.toInt_inj.mp (le_antisymm notAbove notBelow)
    · intro equal
      rw [equal]
  simp only [snapshotTimestampKey, List.append_assoc]
  rw [append_lt_append_left_iff, append_lt_append_iff sameLength, append_lt_append_left_iff, sortableI64_lt_iff, same,
    CatalogOrderId.lt_iff]

/-! ## Entries of the end-order index -/

theorem u64FromBytes_u64Bytes (truncated : CatalogError) (value : UInt64) :
    u64FromBytes truncated (u64Bytes value) = .ok value := by
  have fits : value.toNat < 256 ^ 8 := value.toNat_lt
  rw [u64FromBytes, if_pos (length_u64Bytes value), u64Bytes, beNumber_beBytes fits, UInt64.ofNat_toNat]

section EndOrders

variable (catalog tableId : UInt64) (endOrder : CatalogOrderId)

/-- The fields that all kinds of entries have stand at fixed places. -/
theorem decodeEndOrderEntry_object {object : Bytes} (long : 8 ≤ object.length) :
    decodeEndOrderEntry catalog
        (familyPrefix catalog .endOrder ++ (u64Bytes tableId ++ ([sep] ++ (endOrder.asBytes ++ ([sep] ++ object))))) =
      if object.length = 8 then do
        let dataFileId ← u64FromBytes (.invalidKey "end-order data file id is truncated") object
        .ok (some (.dataFile dataFileId))
      else if object.length = 10 ∧ object[0]? = some (asciiByte 'x') ∧ object[1]? = some sep then do
        let deleteFileId ← u64FromBytes (.invalidKey "end-order delete file id is truncated") (object.drop 2)
        .ok (some (.deleteFile tableId deleteFileId))
      else if object.length = 27 ∧ object[0]? = some (asciiByte 'i') ∧ object[1]? = some sep then
        if object[10]? ≠ some sep then
          .error (.invalidKey "end-order inline table separators are invalid")
        else do
          let beginOrder ← uuidV7FromBytes (.invalidKey "end-order inline begin is truncated") (object.drop 11)
          let schemaId ← u64FromBytes (.invalidKey "end-order inline schema is truncated") ((object.drop 2).take 8)
          .ok (some (.inlineTable tableId schemaId beginOrder endOrder.asUuidV7))
      else .error (.invalidKey s!"end-order object tail has unsupported shape: {object.length} bytes") := by
  have begins : (familyPrefix catalog .endOrder).isPrefixOf (familyPrefix catalog .endOrder ++
      (u64Bytes tableId ++ ([sep] ++ (endOrder.asBytes ++ ([sep] ++ object))))) = true :=
    List.isPrefixOf_iff_prefix.mpr (List.prefix_append ..)
  have table : (u64Bytes tableId ++ ([sep] ++ (endOrder.asBytes ++ ([sep] ++ object)))).take 8 = u64Bytes tableId :=
    List.take_left' (length_u64Bytes tableId)
  have order : ((u64Bytes tableId ++ ([sep] ++ (endOrder.asBytes ++ ([sep] ++ object)))).drop 9).take
      CatalogOrderId.LEN = endOrder.asBytes := by
    rw [← List.append_assoc, List.drop_left' (by simp)]
    exact List.take_left' endOrder.length_asBytes
  have tail : (u64Bytes tableId ++ ([sep] ++ (endOrder.asBytes ++ ([sep] ++ object)))).drop
      (9 + CatalogOrderId.LEN + 1) = object := by
    rw [← List.append_assoc, ← List.append_assoc, ← List.append_assoc,
      List.drop_left' (by simp [CatalogOrderId.LEN])]
  have first : (u64Bytes tableId ++ ([sep] ++ (endOrder.asBytes ++ ([sep] ++ object))))[8]? = some sep := by
    simp
  have second : (u64Bytes tableId ++ ([sep] ++ (endOrder.asBytes ++ ([sep] ++ object))))[9 + CatalogOrderId.LEN]? =
      some sep := by
    have front : (u64Bytes tableId ++ [sep] ++ endOrder.asBytes).length = 9 + CatalogOrderId.LEN := by
      simp [CatalogOrderId.LEN]
    rw [← List.append_assoc, ← List.append_assoc, List.getElem?_append_right front.le, front, Nat.sub_self]
    rfl
  have enough : ¬ (u64Bytes tableId ++ ([sep] ++ (endOrder.asBytes ++ ([sep] ++ object)))).length <
      8 + 1 + CatalogOrderId.LEN + 1 + 8 := by
    simp [CatalogOrderId.LEN]
    omega
  rw [decodeEndOrderEntry]
  simp only [begins, not_true_eq_false, if_false, List.drop_left, if_neg enough, table, u64FromBytes_u64Bytes, ok_bind,
    first, second, ne_eq, or_self, tail, order, uuidV7FromBytes_asBytes]
  rfl

theorem decodeEndOrderEntry_dataFile (dataFileId : UInt64) :
    decodeEndOrderEntry catalog (dataFileEndKey catalog tableId endOrder dataFileId) =
      .ok (some (.dataFile dataFileId)) := by
  have long : 8 ≤ (u64Bytes dataFileId).length := (length_u64Bytes dataFileId).ge
  have shape := decodeEndOrderEntry_object catalog tableId endOrder long
  rw [if_pos (length_u64Bytes dataFileId), u64FromBytes_u64Bytes, ok_bind] at shape
  simpa only [dataFileEndKey, List.append_assoc] using shape

theorem decodeEndOrderEntry_deleteFile (deleteFileId : UInt64) :
    decodeEndOrderEntry catalog (deleteFileEndKey catalog tableId endOrder deleteFileId) =
      .ok (some (.deleteFile tableId deleteFileId)) := by
  have length : ([asciiByte 'x'] ++ ([sep] ++ u64Bytes deleteFileId)).length = 10 := by simp
  have shape := decodeEndOrderEntry_object catalog tableId endOrder (length.ge.trans' (by decide))
  rw [if_neg (by rw [length]; decide), if_pos ⟨length, rfl, rfl⟩] at shape
  have id : ([asciiByte 'x'] ++ ([sep] ++ u64Bytes deleteFileId)).drop 2 = u64Bytes deleteFileId := rfl
  rw [id, u64FromBytes_u64Bytes, ok_bind] at shape
  simpa only [deleteFileEndKey, List.append_assoc] using shape

theorem decodeEndOrderEntry_inlineTable (schemaId : UInt64) (beginOrder : CatalogOrderId) :
    decodeEndOrderEntry catalog (inlineTableEndKey catalog tableId endOrder schemaId beginOrder) =
      .ok (some (.inlineTable tableId schemaId beginOrder.asUuidV7 endOrder.asUuidV7)) := by
  have length : ([asciiByte 'i'] ++ ([sep] ++ (u64Bytes schemaId ++ ([sep] ++ beginOrder.asBytes)))).length = 27 := by
    simp
  have shape := decodeEndOrderEntry_object catalog tableId endOrder (length.ge.trans' (by decide))
  rw [if_neg (by rw [length]; decide), if_neg (fun both => absurd (length.symm.trans both.1) (by decide)),
    if_pos ⟨length, rfl, rfl⟩] at shape
  have separator : ([asciiByte 'i'] ++ ([sep] ++ (u64Bytes schemaId ++ ([sep] ++ beginOrder.asBytes))))[10]? =
      some sep := by
    simp
  have schema : (([asciiByte 'i'] ++ ([sep] ++ (u64Bytes schemaId ++ ([sep] ++ beginOrder.asBytes)))).drop 2).take 8 =
      u64Bytes schemaId :=
    List.take_left' (length_u64Bytes schemaId)
  have order : ([asciiByte 'i'] ++ ([sep] ++ (u64Bytes schemaId ++ ([sep] ++ beginOrder.asBytes)))).drop 11 =
      beginOrder.asBytes := by
    rw [← List.append_assoc, ← List.append_assoc, ← List.append_assoc, List.drop_left' (by simp)]
  simp only [separator, ne_eq, not_true_eq_false, if_false, schema, order, uuidV7FromBytes_asBytes,
    u64FromBytes_u64Bytes, ok_bind] at shape
  simpa only [inlineTableEndKey, List.append_assoc] using shape

end EndOrders

/-! ## The key space -/

/-- Keys keep every field but the kind of an order and the case of a table name; each listing
and each scan up to an order finds its own keys only. -/
theorem keySpace_unambiguous :
    (∀ catalog other left right, LogicalKey.Fits left → LogicalKey.Fits right →
      (left.bytes catalog = right.bytes other ↔ catalog = other ∧ left.canonical = right.canonical)) ∧
    (∀ catalog other listing key, ListingPrefix.Fits listing → LogicalKey.Fits key →
      ((listing.bytes catalog ≤ key.bytes other ∧ key.bytes other < prefixEnd (listing.bytes catalog)) ↔
        catalog = other ∧ listing ∈ key.listings)) ∧
    (∀ catalog other index key order, LogicalKey.Fits key →
      ((index.listing.bytes catalog ≤ key.bytes other ∧ key.bytes other < OrderIndex.scanEnd catalog order index) ↔
        catalog = other ∧ ∃ held, index.orderOf key = some held ∧ held ≤ order)) ∧
    (∀ catalog other index key startOrder start endOrder, LogicalKey.Fits key →
      OrderIndex.scanStart catalog startOrder index = some start →
      ((start ≤ key.bytes other ∧ key.bytes other < index.scanEnd catalog endOrder) ↔
        catalog = other ∧ ∃ held, index.orderOf key = some held ∧ startOrder ≤ held ∧ held ≤ endOrder)) ∧
    (∀ catalog left right leftOrder rightOrder,
      snapshotTimestampKey catalog left leftOrder < snapshotTimestampKey catalog right rightOrder ↔
        left < right ∨ left = right ∧ leftOrder < rightOrder) ∧
    (∀ catalog tableId endOrder dataFileId,
      decodeEndOrderEntry catalog (dataFileEndKey catalog tableId endOrder dataFileId) =
        .ok (some (.dataFile dataFileId))) ∧
    (∀ catalog tableId endOrder deleteFileId,
      decodeEndOrderEntry catalog (deleteFileEndKey catalog tableId endOrder deleteFileId) =
        .ok (some (.deleteFile tableId deleteFileId))) ∧
    ∀ catalog tableId endOrder schemaId beginOrder,
      decodeEndOrderEntry catalog (inlineTableEndKey catalog tableId endOrder schemaId beginOrder) =
        .ok (some (.inlineTable tableId schemaId beginOrder.asUuidV7 endOrder.asUuidV7)) :=
  ⟨fun _ _ _ _ => LogicalKey.bytes_eq_iff, fun _ _ _ _ => ListingPrefix.between_iff,
    fun _ _ _ _ order keyFits => OrderIndex.scan_iff keyFits order,
    fun _ _ _ _ _ _ endOrder keyFits found => OrderIndex.window_iff keyFits found endOrder,
    snapshotTimestampKey_lt_iff, decodeEndOrderEntry_dataFile, decodeEndOrderEntry_deleteFile,
    decodeEndOrderEntry_inlineTable⟩

theorem keySpace_unambiguous_currentDataFile :
    (ListingPrefix.currentDataFile 2).bytes 1 ≤ (LogicalKey.currentDataFile 2 3).bytes 1 ∧
      (LogicalKey.currentDataFile 2 3).bytes 1 < prefixEnd ((ListingPrefix.currentDataFile 2).bytes 1) :=
  (keySpace_unambiguous.2.1 1 1 (.currentDataFile 2) (.currentDataFile 2 3) trivial trivial).mpr
    ⟨rfl, List.mem_cons_of_mem _ (List.mem_cons_of_mem _ (List.mem_cons_self ..))⟩

/-- Two orders with the same bytes and different kinds are different arguments with one key. -/
theorem snapshotKey_kinds :
    (⟨.uuidV7, Vector.replicate 16 1⟩ : CatalogOrderId) ≠ ⟨.fdbVersionstamp, Vector.replicate 16 1⟩ ∧
      snapshotKey 1 ⟨.uuidV7, Vector.replicate 16 1⟩ = snapshotKey 1 ⟨.fdbVersionstamp, Vector.replicate 16 1⟩ :=
  ⟨by decide, rfl⟩

end DucklakeCatalog.Wire
