import DucklakeCatalog.ByteCodec.EscapedStrings
import DucklakeCatalog.KeyedStore.Fallible
import DucklakeCatalog.Wire.VersionstampedKeys

/-! How the FoundationDB store writes the keys of the catalog: namespace and family as
tuple elements, the rest of the key behind them, and cleanup values with the primary key
of the file they point at. -/
namespace DucklakeCatalog.Wire

open ByteCodec KeyedStore

/-- The tuple layer of the `foundationdb` crate at byte strings. -/
structure TupleLayer where
  pack : Bytes → Bytes
  unpack : Bytes → Except String (Bytes × Bytes)
  trailingBytes : String

/-- A byte string is written as 0x01, the bytes with 0x00 as 0x00 0xff, and 0x00, and read
up to a 0x00 that 0xff does not follow. -/
structure TupleLayer.Documented (tuple : TupleLayer) : Prop where
  pack : ∀ value, tuple.pack value = packString value
  unpack : ∀ input, (tuple.unpack input).toOption = unpackString input

def FDB_LOGICAL_FAMILY_PREFIX_BYTES : Nat := 11

def isPrimaryFileKey (key : Bytes) : Bool :=
  key[8]? == some sep && key[10]? == some sep &&
    (key[9]? == some KeyFamily.dataFile.code || key[9]? == some KeyFamily.deleteFile.code)

def isCleanupKey (key : Bytes) : Bool :=
  key[8]? == some sep && key[9]? == some KeyFamily.scheduledCleanup.code && key[10]? == some sep

def mapTupleError {α : Type} (result : Except String α) : CatalogResult α :=
  result.mapError fun error => .decode s!"invalid FoundationDB physical tuple: {error}"

@[simp]
theorem mapTupleError_ok {α : Type} (value : α) : mapTupleError (.ok value) = .ok value := rfl

@[simp]
theorem mapTupleError_error {α : Type} (error : String) :
    mapTupleError (.error error : Except String α) =
      .error (.decode s!"invalid FoundationDB physical tuple: {error}") :=
  rfl

section Keys

variable (tuple : TupleLayer)

def encodeKey (keyspace key : Bytes) : Bytes :=
  let split := min key.length FDB_LOGICAL_FAMILY_PREFIX_BYTES
  let physical := tuple.pack keyspace ++ tuple.pack (key.take split)
  if isPrimaryFileKey key then physical ++ tuple.pack (key.drop split) else physical ++ key.drop split

/-- A bound of a range: what it shares with the keys behind it stands without terminator. -/
def encodeRangeBound (keyspace key : Bytes) : Bytes :=
  let split := min key.length FDB_LOGICAL_FAMILY_PREFIX_BYTES
  let physical := tuple.pack keyspace ++ tuple.pack (key.take split)
  if key.length < FDB_LOGICAL_FAMILY_PREFIX_BYTES then physical.dropLast
  else if isPrimaryFileKey key && decide (split < key.length) then physical ++ (tuple.pack (key.drop split)).dropLast
  else physical ++ key.drop split

/-- The whole input as one byte string. -/
def TupleLayer.unpackWhole (input : Bytes) : Except String Bytes := do
  let (value, rest) ← tuple.unpack input
  if rest.isEmpty then .ok value else .error tuple.trailingBytes

def decodeKey (keyspace physical : Bytes) : CatalogResult Bytes := do
  let (keyNamespace, input) ← mapTupleError (tuple.unpack physical)
  let (family, keyTail) ← mapTupleError (tuple.unpack input)
  if keyNamespace ≠ keyspace then .error (.invalidKey "FoundationDB key has another namespace")
  else if isPrimaryFileKey family then do
    let rest ← mapTupleError (tuple.unpackWhole keyTail)
    .ok (family ++ rest)
  else .ok (family ++ keyTail)

end Keys

/-! ## Values -/

/-- The primary key of the file a cleanup entry is about, in its two parts. -/
def cleanupReference (key : Bytes) : CatalogResult (Bytes × Bytes) :=
  if key.length ≠ FDB_LOGICAL_FAMILY_PREFIX_BYTES + 10 ∨ key[12]? ≠ some sep then
    .error (.invalidKey "cleanup index key has an invalid shape")
  else do
    let family ←
      if key[11]? = some (asciiByte 'd') then .ok KeyFamily.dataFile
      else if key[11]? = some (asciiByte 'x') then .ok KeyFamily.deleteFile
      else .error (.invalidKey "cleanup index has an unknown object kind")
    .ok ((key.take FDB_LOGICAL_FAMILY_PREFIX_BYTES).set 9 family.code, key.drop 13)

section Values

variable (tuple : TupleLayer)

def encodeValue (key value : Bytes) : CatalogResult Bytes :=
  if isCleanupKey key then do
    let (family, id) ← cleanupReference key
    .ok (tuple.pack family ++ tuple.pack id ++ tuple.pack value)
  else .ok value

def TupleLayer.unpackThree (input : Bytes) : Except String (Bytes × Bytes × Bytes) := do
  let (first, input) ← tuple.unpack input
  let (second, input) ← tuple.unpack input
  let third ← tuple.unpackWhole input
  .ok (first, second, third)

def decodeValue (key value : Bytes) : CatalogResult Bytes :=
  if isCleanupKey key then do
    let (family, id, payload) ← mapTupleError (tuple.unpackThree value)
    let (expectedFamily, expectedId) ← cleanupReference key
    if family ≠ expectedFamily ∨ id ≠ expectedId then
      .error (.decode "cleanup reference does not match its index key")
    else .ok payload
  else .ok value

end Values

/-! ## What the tuple layer reads back -/

namespace TupleLayer.Documented

variable {tuple : TupleLayer} (documented : tuple.Documented)

include documented

theorem unpack_ok {input value after : Bytes} :
    tuple.unpack input = .ok (value, after) ↔ unpackString input = some (value, after) := by
  rw [← documented.unpack input]
  cases tuple.unpack input <;> simp [Except.toOption]

theorem unpack_pack (value : Bytes) {after : Bytes} (unescaped : after.head? ≠ some 0xff) :
    tuple.unpack (tuple.pack value ++ after) = .ok (value, after) := by
  rw [documented.unpack_ok, documented.pack]
  exact unpackString_packString value unescaped

/-- An element is never taken for the continuation of the element before it. -/
theorem unpack_pack_pack (value next after : Bytes) :
    tuple.unpack (tuple.pack value ++ (tuple.pack next ++ after)) = .ok (value, tuple.pack next ++ after) := by
  apply documented.unpack_pack
  rw [documented.pack]
  simp [packString]

theorem unpackWhole_pack (value : Bytes) : tuple.unpackWhole (tuple.pack value) = .ok value := by
  have read : tuple.unpack (tuple.pack value ++ []) = _ := documented.unpack_pack value (by simp)
  rw [List.append_nil] at read
  rw [TupleLayer.unpackWhole, read]
  rfl

theorem unpackThree_pack (first second third : Bytes) :
    tuple.unpackThree (tuple.pack first ++ tuple.pack second ++ tuple.pack third) = .ok (first, second, third) := by
  have head := documented.unpack_pack_pack first second (tuple.pack third)
  have middle := documented.unpack_pack_pack second third []
  rw [List.append_nil] at middle
  rw [TupleLayer.unpackThree, List.append_assoc, head]
  simp only [ok_bind, middle, documented.unpackWhole_pack]

end TupleLayer.Documented

/-! ## Keys of at least a family prefix -/

variable {key left right bound : Bytes}

theorem isPrimaryFileKey_take :
    isPrimaryFileKey (key.take FDB_LOGICAL_FAMILY_PREFIX_BYTES) = isPrimaryFileKey key := by
  simp [isPrimaryFileKey, FDB_LOGICAL_FAMILY_PREFIX_BYTES]

theorem isPrimaryFileKey_append {front : Bytes} (full : front.length = FDB_LOGICAL_FAMILY_PREFIX_BYTES) (rest : Bytes) :
    isPrimaryFileKey (front ++ rest) = isPrimaryFileKey front := by
  rw [← isPrimaryFileKey_take, List.take_left' full]

/-- What `encodeKey` writes behind the family. -/
def physicalTail (key : Bytes) : Bytes :=
  if isPrimaryFileKey key then packString (key.drop FDB_LOGICAL_FAMILY_PREFIX_BYTES)
  else key.drop FDB_LOGICAL_FAMILY_PREFIX_BYTES

/-- What `encodeRangeBound` writes behind the family. -/
def boundTail (key : Bytes) : Bytes :=
  if isPrimaryFileKey key ∧ FDB_LOGICAL_FAMILY_PREFIX_BYTES < key.length then
    1 :: escaped (key.drop FDB_LOGICAL_FAMILY_PREFIX_BYTES)
  else key.drop FDB_LOGICAL_FAMILY_PREFIX_BYTES

theorem lt_iff_families (leftFull : FDB_LOGICAL_FAMILY_PREFIX_BYTES ≤ left.length)
    (rightFull : FDB_LOGICAL_FAMILY_PREFIX_BYTES ≤ right.length) :
    left < right ↔
      left.take FDB_LOGICAL_FAMILY_PREFIX_BYTES < right.take FDB_LOGICAL_FAMILY_PREFIX_BYTES ∨
        left.take FDB_LOGICAL_FAMILY_PREFIX_BYTES = right.take FDB_LOGICAL_FAMILY_PREFIX_BYTES ∧
          left.drop FDB_LOGICAL_FAMILY_PREFIX_BYTES < right.drop FDB_LOGICAL_FAMILY_PREFIX_BYTES := by
  have sameLength : (left.take FDB_LOGICAL_FAMILY_PREFIX_BYTES).length =
      (right.take FDB_LOGICAL_FAMILY_PREFIX_BYTES).length := by
    rw [List.length_take_of_le leftFull, List.length_take_of_le rightFull]
  have split := append_lt_append_iff sameLength (left.drop FDB_LOGICAL_FAMILY_PREFIX_BYTES)
    (right.drop FDB_LOGICAL_FAMILY_PREFIX_BYTES)
  rwa [List.take_append_drop, List.take_append_drop] at split

theorem isPrimaryFileKey_congr
    (same : left.take FDB_LOGICAL_FAMILY_PREFIX_BYTES = right.take FDB_LOGICAL_FAMILY_PREFIX_BYTES) :
    isPrimaryFileKey left = isPrimaryFileKey right := by
  rw [← isPrimaryFileKey_take, same, isPrimaryFileKey_take]

theorem physicalTail_lt_iff (same : isPrimaryFileKey left = isPrimaryFileKey right) :
    physicalTail left < physicalTail right ↔
      left.drop FDB_LOGICAL_FAMILY_PREFIX_BYTES < right.drop FDB_LOGICAL_FAMILY_PREFIX_BYTES := by
  rw [physicalTail, physicalTail, ← same]
  by_cases primary : isPrimaryFileKey left
  · rw [if_pos primary, if_pos primary, packString_lt_iff]
  · rw [if_neg primary, if_neg primary]

theorem physicalTail_lt_boundTail_iff (same : isPrimaryFileKey key = isPrimaryFileKey bound) :
    physicalTail key < boundTail bound ↔
      key.drop FDB_LOGICAL_FAMILY_PREFIX_BYTES < bound.drop FDB_LOGICAL_FAMILY_PREFIX_BYTES := by
  rw [physicalTail, boundTail, ← same]
  by_cases primary : isPrimaryFileKey key
  · rw [if_pos primary]
    by_cases longer : FDB_LOGICAL_FAMILY_PREFIX_BYTES < bound.length
    · rw [if_pos ⟨primary, longer⟩]
      change 1 :: (escaped _ ++ [0]) < 1 :: escaped _ ↔ _
      rw [List.cons_lt_cons_iff, escaped_zero_lt_iff]
      simp
    · have empty : bound.drop FDB_LOGICAL_FAMILY_PREFIX_BYTES = [] := List.drop_eq_nil_of_le (not_lt.mp longer)
      rw [if_neg (fun both => longer both.2), empty]
      simp
  · rw [if_neg primary, if_neg (fun both => primary both.1)]

namespace TupleLayer.Documented

variable {tuple : TupleLayer} (documented : tuple.Documented) (keyspace : Bytes)

include documented

theorem encodeKey_eq (full : FDB_LOGICAL_FAMILY_PREFIX_BYTES ≤ key.length) :
    encodeKey tuple keyspace key =
      packString keyspace ++ 1 :: (escaped (key.take FDB_LOGICAL_FAMILY_PREFIX_BYTES) ++ 0 :: physicalTail key) := by
  simp only [encodeKey, min_eq_right full, documented.pack, physicalTail]
  by_cases primary : isPrimaryFileKey key
  · rw [if_pos primary, if_pos primary]
    simp [packString]
  · rw [if_neg primary, if_neg primary]
    simp [packString]

theorem encodeRangeBound_short (short : bound.length < FDB_LOGICAL_FAMILY_PREFIX_BYTES) :
    encodeRangeBound tuple keyspace bound = packString keyspace ++ 1 :: escaped bound := by
  have whole : min bound.length FDB_LOGICAL_FAMILY_PREFIX_BYTES = bound.length := min_eq_left short.le
  have shape : packString keyspace ++ packString bound = (packString keyspace ++ 1 :: escaped bound) ++ [0] := by
    simp [packString]
  simp only [encodeRangeBound, whole, documented.pack, if_pos short, List.take_length]
  rw [shape, List.dropLast_concat]

theorem encodeRangeBound_full (full : FDB_LOGICAL_FAMILY_PREFIX_BYTES ≤ bound.length) :
    encodeRangeBound tuple keyspace bound =
      packString keyspace ++ 1 :: (escaped (bound.take FDB_LOGICAL_FAMILY_PREFIX_BYTES) ++ 0 :: boundTail bound) := by
  simp only [encodeRangeBound, min_eq_right full, documented.pack, if_neg (not_lt.mpr full), boundTail,
    Bool.and_eq_true, decide_eq_true_eq]
  by_cases tailed : isPrimaryFileKey bound = true ∧ FDB_LOGICAL_FAMILY_PREFIX_BYTES < bound.length
  · have shape : ∀ rest, packString rest = (1 :: escaped rest) ++ [0] := fun _ => rfl
    rw [if_pos tailed, if_pos tailed, shape (bound.drop _), List.dropLast_concat]
    simp [packString]
  · rw [if_neg tailed, if_neg tailed]
    simp [packString]

theorem encodeKey_lt_iff (leftFull : FDB_LOGICAL_FAMILY_PREFIX_BYTES ≤ left.length)
    (rightFull : FDB_LOGICAL_FAMILY_PREFIX_BYTES ≤ right.length) :
    encodeKey tuple keyspace left < encodeKey tuple keyspace right ↔ left < right := by
  have sameLength : (left.take FDB_LOGICAL_FAMILY_PREFIX_BYTES).length =
      (right.take FDB_LOGICAL_FAMILY_PREFIX_BYTES).length := by
    rw [List.length_take_of_le leftFull, List.length_take_of_le rightFull]
  rw [documented.encodeKey_eq keyspace leftFull, documented.encodeKey_eq keyspace rightFull,
    append_lt_append_left_iff, List.cons_lt_cons_iff, escaped_append_lt_iff sameLength,
    lt_iff_families leftFull rightFull]
  simp only [lt_irrefl, false_or, true_and, List.cons_lt_cons_iff]
  refine or_congr_right (and_congr_right fun same => ?_)
  exact physicalTail_lt_iff (isPrimaryFileKey_congr same)

/-- A key is before a bound in the store exactly when it is before it in the catalog. -/
theorem encodeKey_lt_encodeRangeBound_iff (full : FDB_LOGICAL_FAMILY_PREFIX_BYTES ≤ key.length)
    (bound : Bytes) : encodeKey tuple keyspace key < encodeRangeBound tuple keyspace bound ↔ key < bound := by
  rw [documented.encodeKey_eq keyspace full]
  by_cases short : bound.length < FDB_LOGICAL_FAMILY_PREFIX_BYTES
  · have shorter : bound.length ≤ (key.take FDB_LOGICAL_FAMILY_PREFIX_BYTES).length := by
      rw [List.length_take_of_le full]
      exact short.le
    have logical : bound ≤ key ↔ bound ≤ key.take FDB_LOGICAL_FAMILY_PREFIX_BYTES := by
      rw [← le_append_iff shorter (key.drop FDB_LOGICAL_FAMILY_PREFIX_BYTES), List.take_append_drop]
    rw [documented.encodeRangeBound_short keyspace short, append_lt_append_left_iff, List.cons_lt_cons_iff]
    simp only [lt_irrefl, false_or, true_and]
    rw [← not_le, escaped_le_append_iff shorter, ← logical, not_le]
  · have boundFull : FDB_LOGICAL_FAMILY_PREFIX_BYTES ≤ bound.length := not_lt.mp short
    have sameLength : (key.take FDB_LOGICAL_FAMILY_PREFIX_BYTES).length =
        (bound.take FDB_LOGICAL_FAMILY_PREFIX_BYTES).length := by
      rw [List.length_take_of_le full, List.length_take_of_le boundFull]
    rw [documented.encodeRangeBound_full keyspace boundFull, append_lt_append_left_iff, List.cons_lt_cons_iff,
      escaped_append_lt_iff sameLength, lt_iff_families full boundFull]
    simp only [lt_irrefl, false_or, true_and, List.cons_lt_cons_iff]
    refine or_congr_right (and_congr_right fun same => ?_)
    exact physicalTail_lt_boundTail_iff (isPrimaryFileKey_congr same)

theorem encodeRangeBound_front (bound : Bytes) :
    ∃ rest, encodeRangeBound tuple keyspace bound = (packString keyspace ++ [1]) ++ rest := by
  by_cases short : bound.length < FDB_LOGICAL_FAMILY_PREFIX_BYTES
  · exact ⟨escaped bound, by simp [documented.encodeRangeBound_short keyspace short]⟩
  · exact ⟨_, by rw [documented.encodeRangeBound_full keyspace (not_lt.mp short), List.append_cons]⟩

/-- What lies between two bounds of a namespace is in that namespace. -/
theorem keyspace_of_between {other : Bytes} {start stop : Bytes} (full : FDB_LOGICAL_FAMILY_PREFIX_BYTES ≤ key.length)
    (above : encodeRangeBound tuple other start ≤ encodeKey tuple keyspace key)
    (below : encodeKey tuple keyspace key < encodeRangeBound tuple other stop) : other = keyspace := by
  obtain ⟨first, startShape⟩ := documented.encodeRangeBound_front other start
  obtain ⟨last, stopShape⟩ := documented.encodeRangeBound_front other stop
  have fromFront : packString other ++ [1] ≤ encodeRangeBound tuple other start := by
    rw [startShape]
    exact le_append_self _ first
  rw [stopShape] at below
  obtain ⟨rest, shape⟩ := prefix_of_between (fromFront.trans above) below
  rw [documented.encodeKey_eq keyspace full, List.append_assoc] at shape
  have readOther : unpackString (packString other ++ ([1] ++ rest)) = _ := unpackString_packString other (by simp)
  rw [shape, unpackString_packString keyspace (by simp)] at readOther
  exact (Prod.mk.inj (Option.some.inj readOther)).1.symm

/-! ## Reading keys and values back -/

theorem decodeKey_encodeKey (full : FDB_LOGICAL_FAMILY_PREFIX_BYTES ≤ key.length)
    (readable : isPrimaryFileKey key ∨ key[11]? ≠ some 0xff) :
    decodeKey tuple keyspace (encodeKey tuple keyspace key) = .ok key := by
  have unescaped : (physicalTail key).head? ≠ some 0xff := by
    rw [physicalTail]
    by_cases primary : isPrimaryFileKey key
    · rw [if_pos primary]
      simp [packString]
    · rw [if_neg primary, List.head?_drop]
      exact readable.resolve_left primary
  have shape : encodeKey tuple keyspace key = tuple.pack keyspace ++
      (tuple.pack (key.take FDB_LOGICAL_FAMILY_PREFIX_BYTES) ++ physicalTail key) := by
    simp [documented.encodeKey_eq keyspace full, documented.pack, packString]
  rw [shape, decodeKey, documented.unpack_pack_pack]
  simp only [documented.unpack_pack _ unescaped, mapTupleError_ok, ok_bind, ne_eq, not_true_eq_false, if_false,
    isPrimaryFileKey_take]
  rw [physicalTail]
  by_cases primary : isPrimaryFileKey key
  · simp only [if_pos primary, ← documented.pack, documented.unpackWhole_pack, mapTupleError_ok, ok_bind,
      List.take_append_drop]
  · simp only [if_neg primary, List.take_append_drop]

/-- The first byte behind the family continues the family when it is 0xff. -/
theorem decodeKey_encodeKey_escape (full : FDB_LOGICAL_FAMILY_PREFIX_BYTES ≤ key.length)
    (raw : isPrimaryFileKey key = false) (escape : key[11]? = some 0xff) :
    decodeKey tuple keyspace (encodeKey tuple keyspace key) ≠ .ok key := by
  obtain ⟨more, tail⟩ : ∃ more, key.drop FDB_LOGICAL_FAMILY_PREFIX_BYTES = 0xff :: more := by
    rw [← List.head?_drop] at escape
    exact ⟨_, List.eq_cons_of_mem_head? escape⟩
  have familyLength : (key.take FDB_LOGICAL_FAMILY_PREFIX_BYTES).length = FDB_LOGICAL_FAMILY_PREFIX_BYTES :=
    List.length_take_of_le full
  have shape : encodeKey tuple keyspace key = tuple.pack keyspace ++
      (tuple.pack (key.take FDB_LOGICAL_FAMILY_PREFIX_BYTES) ++ 0xff :: more) := by
    simp [documented.encodeKey_eq keyspace full, documented.pack, packString, physicalTail, raw, tail]
  have second := documented.unpack (tuple.pack (key.take FDB_LOGICAL_FAMILY_PREFIX_BYTES) ++ 0xff :: more)
  rw [documented.pack, unpackString_packString_escape, ← documented.pack] at second
  rw [shape, decodeKey, documented.unpack_pack_pack, mapTupleError_ok, ok_bind]
  cases read : tuple.unpack (tuple.pack (key.take FDB_LOGICAL_FAMILY_PREFIX_BYTES) ++ 0xff :: more) with
  | error error =>
    intro same
    obtain ⟨cut, found, -⟩ := bind_eq_ok.mp same
    rw [read] at found
    cases found
  | ok cut =>
    rw [read] at second
    obtain ⟨⟨longer, last⟩, -, rfl⟩ := Option.map_eq_some_iff.mp second.symm
    have secondary : isPrimaryFileKey (key.take FDB_LOGICAL_FAMILY_PREFIX_BYTES ++ 0 :: longer) = false := by
      rw [isPrimaryFileKey_append familyLength, isPrimaryFileKey_take, raw]
    simp only [read, mapTupleError_ok, ok_bind, ne_eq, not_true_eq_false, if_false, secondary, Bool.false_eq_true]
    intro same
    have split : key.take FDB_LOGICAL_FAMILY_PREFIX_BYTES ++ key.drop FDB_LOGICAL_FAMILY_PREFIX_BYTES = key :=
      List.take_append_drop ..
    have same := (Except.ok.inj same).trans split.symm
    rw [List.append_assoc, List.append_cancel_left_eq, tail] at same
    simp at same

theorem decodeValue_encodeValue {value stored : Bytes} (accepted : encodeValue tuple key value = .ok stored) :
    decodeValue tuple key stored = .ok value := by
  rw [encodeValue] at accepted
  rw [decodeValue]
  by_cases cleanup : isCleanupKey key
  · rw [if_pos cleanup] at accepted ⊢
    obtain ⟨⟨family, id⟩, reference, stored⟩ := bind_eq_ok.mp accepted
    cases stored
    rw [documented.unpackThree_pack, mapTupleError_ok, ok_bind, reference]
    simp only [ok_bind, ne_eq, not_true_eq_false, or_self, if_false]
  · rw [if_neg cleanup] at accepted ⊢
    exact accepted.symm

end TupleLayer.Documented

/-! ## The whole codec -/

/-- What a store relies on when it writes one logical key. -/
structure FaithfulCodec (tuple : TupleLayer) (keyspace key : Bytes) : Prop where
  decodes : decodeKey tuple keyspace (encodeKey tuple keyspace key) = .ok key
  ordered : ∀ other : Bytes, FDB_LOGICAL_FAMILY_PREFIX_BYTES ≤ other.length →
    (other < key ↔ encodeKey tuple keyspace other < encodeKey tuple keyspace key)
  ranged : ∀ start stop : Bytes,
    (encodeRangeBound tuple keyspace start ≤ encodeKey tuple keyspace key ∧
      encodeKey tuple keyspace key < encodeRangeBound tuple keyspace stop) ↔ start ≤ key ∧ key < stop
  apart : ∀ other, other ≠ keyspace → ∀ start stop : Bytes,
    ¬ (encodeRangeBound tuple other start ≤ encodeKey tuple keyspace key ∧
      encodeKey tuple keyspace key < encodeRangeBound tuple other stop)
  values : ∀ value stored, encodeValue tuple key value = .ok stored → decodeValue tuple key stored = .ok value

/-- All keys are kept but those with a raw tail that begins with 0xff. -/
theorem faithfulCodec_iff {tuple : TupleLayer} (documented : tuple.Documented) (keyspace : Bytes) {key : Bytes}
    (full : FDB_LOGICAL_FAMILY_PREFIX_BYTES ≤ key.length) :
    FaithfulCodec tuple keyspace key ↔ isPrimaryFileKey key = true ∨ key[11]? ≠ some 0xff := by
  constructor
  · intro faithful
    by_contra unreadable
    rw [not_or, not_not, Bool.not_eq_true] at unreadable
    exact documented.decodeKey_encodeKey_escape keyspace full unreadable.1 unreadable.2 faithful.decodes
  · intro readable
    constructor
    case decodes => exact documented.decodeKey_encodeKey keyspace full readable
    case ordered => exact fun other otherFull => (documented.encodeKey_lt_iff keyspace otherFull full).symm
    case ranged =>
      intro start stop
      rw [← not_lt, documented.encodeKey_lt_encodeRangeBound_iff keyspace full,
        documented.encodeKey_lt_encodeRangeBound_iff keyspace full, not_lt]
    case apart =>
      intro other different start stop between
      exact different (documented.keyspace_of_between keyspace full between.1 between.2)
    case values => exact fun value stored accepted => documented.decodeValue_encodeValue accepted

def plainTuple : TupleLayer where
  pack := packString
  unpack input := (unpackString input).elim (.error "missing bytes") .ok
  trailingBytes := "trailing bytes"

theorem plainTuple_documented : plainTuple.Documented where
  pack _ := rfl
  unpack input := by
    change ((unpackString input).elim (.error "missing bytes") Except.ok).toOption = _
    cases unpackString input <;> rfl

theorem faithfulCodec_iff_begin :
    FaithfulCodec plainTuple [7] (dataFileBeginKey 1 2 .zero 3) ↔
      isPrimaryFileKey (dataFileBeginKey 1 2 .zero 3) = true ∨ (dataFileBeginKey 1 2 .zero 3)[11]? ≠ some 0xff :=
  faithfulCodec_iff plainTuple_documented [7] (by decide)

/-- The table id is read as the end of the family, with the zero byte that ended it. -/
theorem dataFileBeginKey_unreadable :
    ¬ FaithfulCodec plainTuple [7] (dataFileBeginKey 1 0xffffffffffffffff .zero 3) := by
  intro faithful
  have read : decodeKey plainTuple [7] (encodeKey plainTuple [7] (dataFileBeginKey 1 0xffffffffffffffff .zero 3)) =
      .ok (familyPrefix 1 .dataFileBegin ++ [0, 255, 255, 255, 255, 255, 255, 255, sep] ++ List.replicate 15 0 ++
        [sep] ++ u64Bytes 3) := by
    decide +kernel
  have same := Except.ok.inj (read.symm.trans faithful.decodes)
  exact absurd same (by decide +kernel)

end DucklakeCatalog.Wire
