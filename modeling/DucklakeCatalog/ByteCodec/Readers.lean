import DucklakeCatalog.ByteCodec.Numerals

/-! Readers that take a value off the front of a byte string and hand on the rest. -/
namespace ByteCodec

variable {α ε : Type}

abbrev Reader (ε α : Type) := Bytes → Except ε (α × Bytes)

/-- The reader undoes the writer on the domain, whatever follows. -/
def Reads (domain : Set α) (encode : α → Bytes) (decode : Reader ε α) : Prop :=
  ∀ value ∈ domain, ∀ rest, decode (encode value ++ rest) = .ok (value, rest)

def readBytes (truncated : ε) (count : Nat) : Reader ε Bytes := fun bytes =>
  if bytes.length < count then .error truncated else .ok (bytes.take count, bytes.drop count)

theorem readBytes_append (truncated : ε) {count : Nat} {front : Bytes} (length : front.length = count) (rest : Bytes) :
    readBytes truncated count (front ++ rest) = .ok (front, rest) := by
  have long : ¬ (front ++ rest).length < count := by
    rw [List.length_append]
    omega
  rw [readBytes, if_neg long, ← length, List.take_left, List.drop_left]

/-! ## Numbers -/

/-- The number whose base-256 digits are the bytes, most significant first. -/
def beNumber (bytes : Bytes) : Nat := bytes.foldl appendByte 0

theorem beNumber_beBytes {width value : Nat} (fits : value < 256 ^ width) : beNumber (beBytes width value) = value := by
  obtain ⟨low, small, same⟩ := foldl_appendByte (beBytes width value) 0
  have rebuilt := beBytes_foldl_appendByte (beBytes width value) 0
  rw [beBytes_length] at small rebuilt
  have digits := beBytes_inj rebuilt
  rw [Nat.zero_mul, Nat.zero_add] at same
  rw [same, Nat.mod_eq_of_lt small, Nat.mod_eq_of_lt fits] at digits
  rw [beNumber, same, digits]

/-! ## Lists -/

/-- As many values as announced, one after another. -/
def readMany (decode : Reader ε α) : Nat → Reader ε (List α)
  | 0, bytes => .ok ([], bytes)
  | count + 1, bytes => do
    let (value, bytes) ← decode bytes
    let (values, bytes) ← readMany decode count bytes
    .ok (value :: values, bytes)

theorem Reads.many {domain : Set α} {encode : α → Bytes} {decode : Reader ε α} (reads : Reads domain encode decode)
    {values : List α} (inside : ∀ value ∈ values, value ∈ domain) (rest : Bytes) :
    readMany decode values.length (values.flatMap encode ++ rest) = .ok (values, rest) := by
  induction values with
  | nil => rfl
  | cons value values ih =>
    have first := reads value (inside value (List.mem_cons_self ..)) (values.flatMap encode ++ rest)
    have later := ih fun other member => inside other (List.mem_cons_of_mem _ member)
    rw [List.flatMap_cons, List.append_assoc, List.length_cons, readMany, first]
    change (readMany decode values.length _ >>= _) = _
    rw [later]
    rfl

/-- One byte that stands for one of the values. -/
def readCode (unknown : ε) (values : List α) (code : α → UInt8) : Reader ε α
  | [] => .error unknown
  | byte :: rest => (values.find? fun value => code value = byte).elim (.error unknown) fun value => .ok (value, rest)

/-! ## Readers in sequence -/

section Sequence

variable {β : Type}

/-- What is read off the front decides how the rest is read. -/
def andThen (decode : Reader ε α) (next : α → Bytes → Except ε β) (bytes : Bytes) : Except ε β :=
  decode bytes >>= fun read => next read.1 read.2

def expect (other : ε) (tag : Bytes) (next : Bytes → Except ε β) (bytes : Bytes) : Except ε β :=
  if tag.isPrefixOf bytes then next (bytes.drop tag.length) else .error other

def finish (left : ε) (value : β) (bytes : Bytes) : Except ε β := if bytes.isEmpty then .ok value else .error left

/-- The first of the tags that the bytes begin with decides. -/
def choose (unknown : ε) : List (Bytes × (Bytes → Except ε β)) → Bytes → Except ε β
  | [], _ => .error unknown
  | (tag, next) :: others, bytes =>
    if tag.isPrefixOf bytes then next (bytes.drop tag.length) else choose unknown others bytes

theorem expect_append (other : ε) (tag : Bytes) (next : Bytes → Except ε β) (rest : Bytes) :
    expect other tag next (tag ++ rest) = next rest := by
  have begins : tag.isPrefixOf (tag ++ rest) = true := List.isPrefixOf_iff_prefix.mpr (List.prefix_append tag rest)
  rw [expect, if_pos begins, List.drop_left]

theorem choose_here (unknown : ε) (tag : Bytes) (next : Bytes → Except ε β)
    (others : List (Bytes × (Bytes → Except ε β))) (rest : Bytes) :
    choose unknown ((tag, next) :: others) (tag ++ rest) = next rest := by
  have begins : tag.isPrefixOf (tag ++ rest) = true := List.isPrefixOf_iff_prefix.mpr (List.prefix_append tag rest)
  rw [choose, if_pos begins, List.drop_left]

/-- Tags neither of which begins the other are told apart whatever follows them. -/
theorem choose_elsewhere (unknown : ε) {tag other : Bytes} (next : Bytes → Except ε β)
    (others : List (Bytes × (Bytes → Except ε β)))
    (apart : (tag.isPrefixOf other || other.isPrefixOf tag) = false) (rest : Bytes) :
    choose unknown ((tag, next) :: others) (other ++ rest) = choose unknown others (other ++ rest) := by
  have different : ¬ tag.isPrefixOf (other ++ rest) = true := by
    intro begins
    have both := List.prefix_or_prefix_of_prefix (List.isPrefixOf_iff_prefix.mp begins) (List.prefix_append other rest)
    rw [Bool.or_eq_false_iff] at apart
    rcases both with front | front
    · exact absurd (List.isPrefixOf_iff_prefix.mpr front) (by simp [apart.1])
    · exact absurd (List.isPrefixOf_iff_prefix.mpr front) (by simp [apart.2])
  rw [choose, if_neg different]

/-- Every value that is read has the property. -/
def Yields (Holds : β → Prop) (read : Bytes → Except ε β) : Prop := ∀ bytes value, read bytes = .ok value → Holds value

namespace Yields

variable {Holds : β → Prop}

theorem andThen {decode : Reader ε α} {next : α → Bytes → Except ε β} (later : ∀ value, Yields Holds (next value)) :
    Yields Holds (ByteCodec.andThen decode next) := by
  intro bytes value read
  rw [ByteCodec.andThen] at read
  cases first : decode bytes with
  | error failure =>
    rw [first] at read
    cases read
  | ok found =>
    rw [first] at read
    exact later found.1 found.2 value read

theorem expect {other : ε} {tag : Bytes} {next : Bytes → Except ε β} (later : Yields Holds next) :
    Yields Holds (ByteCodec.expect other tag next) := by
  intro bytes value read
  rw [ByteCodec.expect] at read
  split at read
  · exact later _ value read
  · cases read

theorem finish {left : ε} {value : β} (holds : Holds value) : Yields Holds (ByteCodec.finish left value) := by
  intro bytes found read
  rw [ByteCodec.finish] at read
  split at read
  · exact Except.ok.inj read ▸ holds
  · cases read

theorem refused {failure : ε} : Yields Holds fun _ => (.error failure : Except ε β) := by
  intro bytes value read
  cases read

theorem nowhere {unknown : ε} : Yields Holds (choose unknown ([] : List (Bytes × (Bytes → Except ε β)))) := by
  intro bytes value read
  cases read

theorem here {unknown : ε} {tag : Bytes} {next : Bytes → Except ε β} {others : List (Bytes × (Bytes → Except ε β))}
    (first : Yields Holds next) (later : Yields Holds (choose unknown others)) :
    Yields Holds (choose unknown ((tag, next) :: others)) := by
  intro bytes value read
  rw [choose] at read
  split at read
  · exact first _ value read
  · exact later _ value read

end Yields
end Sequence
end ByteCodec
