import Mathlib.Algebra.Group.Nat.Defs
import Mathlib.Data.Set.Function
import Mathlib.Data.List.Basic

/-! Byte encodings that a reader can cut off the front of a longer stream. The
domain carries the length limits under which the cut is unique. -/
namespace ByteCodec

abbrev Bytes := List UInt8

variable {α β : Type}

/-- No two encodings of the domain are confused, whatever follows them. -/
def SelfDelimitingOn (domain : Set α) (encode : α → Bytes) : Prop :=
  ∀ left ∈ domain, ∀ right ∈ domain, ∀ afterLeft afterRight,
    encode left ++ afterLeft = encode right ++ afterRight → left = right ∧ afterLeft = afterRight

variable {afterLeft afterRight : Bytes} {left right : List α} {stop : UInt8 → Prop}

namespace SelfDelimitingOn

variable {domain : Set α} {encode : α → Bytes}

theorem injOn (delimits : SelfDelimitingOn domain encode) : Set.InjOn encode domain := by
  intro left leftIn right rightIn same
  exact (delimits left leftIn right rightIn [] [] (by simpa using same)).1

theorem cut (delimits : SelfDelimitingOn domain encode) {left right : α} (leftIn : left ∈ domain)
    (rightIn : right ∈ domain) :
    encode left ++ afterLeft = encode right ++ afterRight ↔ left = right ∧ afterLeft = afterRight := by
  constructor
  · exact delimits left leftIn right rightIn afterLeft afterRight
  · rintro ⟨rfl, rfl⟩
    rfl

theorem ofFixedLength (length : Nat) (fixed : ∀ value ∈ domain, (encode value).length = length)
    (injective : Set.InjOn encode domain) : SelfDelimitingOn domain encode := by
  intro left leftIn right rightIn afterLeft afterRight same
  have sameLength : (encode left).length = (encode right).length :=
    (fixed left leftIn).trans (fixed right rightIn).symm
  obtain ⟨front, rest⟩ := List.append_inj same sameLength
  exact ⟨injective leftIn rightIn front, rest⟩

theorem comp {source : Set β} {project : β → α} (delimits : SelfDelimitingOn domain encode)
    (maps : Set.MapsTo project source domain) (injective : Set.InjOn project source) :
    SelfDelimitingOn source (fun value => encode (project value)) := by
  intro left leftIn right rightIn afterLeft afterRight same
  obtain ⟨front, rest⟩ := delimits _ (maps leftIn) _ (maps rightIn) afterLeft afterRight same
  exact ⟨injective leftIn rightIn front, rest⟩

/-- One after another, element by element, as long as both lists have the same length. -/
theorem flatMap (delimits : SelfDelimitingOn domain encode)
    (leftIn : ∀ value ∈ left, value ∈ domain) (rightIn : ∀ value ∈ right, value ∈ domain)
    (sameLength : left.length = right.length)
    (same : left.flatMap encode ++ afterLeft = right.flatMap encode ++ afterRight) :
    left = right ∧ afterLeft = afterRight := by
  induction left generalizing right with
  | nil =>
    cases right with
    | nil => exact ⟨rfl, by simpa using same⟩
    | cons value rest => simp at sameLength
  | cons value rest ih =>
    cases right with
    | nil => simp at sameLength
    | cons other others =>
      simp only [List.flatMap_cons, List.append_assoc] at same
      obtain ⟨rfl, later⟩ := delimits value (leftIn value (by simp)) other (rightIn other (by simp)) _ _ same
      obtain ⟨rfl, after⟩ := ih (fun item member => leftIn item (by simp [member]))
        (fun item member => rightIn item (by simp [member])) (by simpa using sameLength) later
      exact ⟨rfl, after⟩

end SelfDelimitingOn

theorem eq_of_map_eq {domain : Set α} {encode : α → β} (injective : Set.InjOn encode domain)
    (leftIn : ∀ value ∈ left, value ∈ domain) (rightIn : ∀ value ∈ right, value ∈ domain)
    (same : left.map encode = right.map encode) : left = right := by
  induction left generalizing right with
  | nil => exact (List.map_eq_nil_iff.mp same.symm).symm
  | cons value rest ih =>
    cases right with
    | nil => simp at same
    | cons other others =>
      simp only [List.map_cons, List.cons.injEq] at same
      have first : value = other := injective (leftIn value (by simp)) (rightIn other (by simp)) same.1
      have later : rest = others := ih (fun item member => leftIn item (by simp [member]))
        (fun item member => rightIn item (by simp [member])) same.2
      rw [first, later]

/-! ## Big-endian numbers -/

/-- The low `width` base-256 digits of a number, most significant first. -/
def beBytes : Nat → Nat → Bytes
  | 0, _ => []
  | width + 1, value => UInt8.ofNat (value / 256 ^ width) :: beBytes width value

@[simp]
theorem beBytes_length (width value : Nat) : (beBytes width value).length = width := by
  induction width with
  | zero => rfl
  | succ width ih => simp [beBytes, ih]

theorem beBytes_inj {width left right : Nat} (same : beBytes width left = beBytes width right) :
    left % 256 ^ width = right % 256 ^ width := by
  induction width with
  | zero => simp [Nat.mod_one]
  | succ width ih =>
    simp only [beBytes, List.cons.injEq] at same
    have digit : left / 256 ^ width % 256 = right / 256 ^ width % 256 := by
      have nats := congrArg UInt8.toNat same.1
      simpa using nats
    rw [Nat.mod_pow_succ, Nat.mod_pow_succ, ih same.2, digit]

theorem beBytes_delimits (width : Nat) :
    SelfDelimitingOn {value | value < 256 ^ width} (beBytes width) := by
  apply SelfDelimitingOn.ofFixedLength width (fun value _ => beBytes_length width value)
  intro left leftIn right rightIn same
  have digits := beBytes_inj same
  rwa [Nat.mod_eq_of_lt leftIn, Nat.mod_eq_of_lt rightIn] at digits

/-! ## Length prefixes, options and lists -/

/-- Bytes behind their own length in `width` bytes. -/
def sizedBytes (width : Nat) (bytes : Bytes) : Bytes :=
  beBytes width bytes.length ++ bytes

theorem sizedBytes_delimits (width : Nat) :
    SelfDelimitingOn {bytes | bytes.length < 256 ^ width} (sizedBytes width) := by
  intro left leftIn right rightIn afterLeft afterRight same
  simp only [sizedBytes, List.append_assoc] at same
  obtain ⟨sameLength, rest⟩ := beBytes_delimits width _ leftIn _ rightIn _ _ same
  exact List.append_inj rest sameLength

/-- A one-byte marker, then the value, or a fixed filler when there is none. -/
def optionBytes (filler : Bytes) (encode : α → Bytes) : Option α → Bytes
  | some value => 1 :: encode value
  | none => 0 :: filler

theorem optionBytes_delimits {domain : Set α} {encode : α → Bytes} (filler : Bytes)
    (delimits : SelfDelimitingOn domain encode) :
    SelfDelimitingOn {value | ∀ held ∈ value, held ∈ domain} (optionBytes filler encode) := by
  intro left leftIn right rightIn afterLeft afterRight same
  cases left with
  | none =>
    cases right with
    | none => exact ⟨rfl, by simpa [optionBytes] using same⟩
    | some other => simp [optionBytes] at same
  | some value =>
    cases right with
    | none => simp [optionBytes] at same
    | some other =>
      simp only [optionBytes, List.cons_append, List.cons.injEq, true_and] at same
      obtain ⟨rfl, rest⟩ := delimits value (leftIn value rfl) other (rightIn other rfl) _ _ same
      exact ⟨rfl, rest⟩

/-- A list behind its own length in `width` bytes. -/
def countedBytes (width : Nat) (encode : α → Bytes) (values : List α) : Bytes :=
  beBytes width values.length ++ values.flatMap encode

theorem countedBytes_delimits {domain : Set α} {encode : α → Bytes} (width : Nat)
    (delimits : SelfDelimitingOn domain encode) :
    SelfDelimitingOn {values | values.length < 256 ^ width ∧ ∀ value ∈ values, value ∈ domain}
      (countedBytes width encode) := by
  intro left leftIn right rightIn afterLeft afterRight same
  simp only [countedBytes, List.append_assoc] at same
  obtain ⟨sameLength, rest⟩ := beBytes_delimits width _ leftIn.1 _ rightIn.1 _ _ same
  exact delimits.flatMap leftIn.2 rightIn.2 sameLength rest

/-! ## Lists without a count -/

/-- A stream that is empty or goes on with a byte that ends the list before it. -/
def StopsAt (stop : UInt8 → Prop) (bytes : Bytes) : Prop :=
  ∀ first ∈ bytes.head?, stop first

theorem stopsAt_nil (stop : UInt8 → Prop) : StopsAt stop [] := by
  intro first member
  simp at member

theorem stopsAt_cons {first : UInt8} (stops : stop first) (rest : Bytes) :
    StopsAt stop (first :: rest) := by
  intro head member
  simp only [List.head?_cons, Option.mem_def, Option.some.injEq] at member
  exact member ▸ stops

/-- Encodings that never start with a byte that ends their list. -/
def StartsInside (stop : UInt8 → Prop) (domain : Set α) (encode : α → Bytes) : Prop :=
  ∀ value ∈ domain, ∃ first rest, encode value = first :: rest ∧ ¬ stop first

theorem StartsInside.not_stopsAt {domain : Set α} {encode : α → Bytes}
    (inside : StartsInside stop domain encode) {value : α} (member : value ∈ domain) (after : Bytes) :
    ¬ StopsAt stop (encode value ++ after) := by
  intro stops
  obtain ⟨first, rest, starts, goesOn⟩ := inside value member
  apply goesOn
  apply stops first
  simp [starts]

/-- Such a list ends where the stream stops, so it needs no count. -/
theorem SelfDelimitingOn.flatMap_until {domain : Set α} {encode : α → Bytes}
    (delimits : SelfDelimitingOn domain encode) (inside : StartsInside stop domain encode)
    (leftIn : ∀ value ∈ left, value ∈ domain) (rightIn : ∀ value ∈ right, value ∈ domain)
    (leftStops : StopsAt stop afterLeft) (rightStops : StopsAt stop afterRight)
    (same : left.flatMap encode ++ afterLeft = right.flatMap encode ++ afterRight) :
    left = right ∧ afterLeft = afterRight := by
  induction left generalizing right with
  | nil =>
    cases right with
    | nil => exact ⟨rfl, same⟩
    | cons value rest =>
      simp only [List.flatMap_nil, List.nil_append, List.flatMap_cons, List.append_assoc] at same
      exact absurd (same ▸ leftStops) (inside.not_stopsAt (rightIn value (by simp)) _)
  | cons value rest ih =>
    cases right with
    | nil =>
      simp only [List.flatMap_nil, List.nil_append, List.flatMap_cons, List.append_assoc] at same
      exact absurd (same.symm ▸ rightStops) (inside.not_stopsAt (leftIn value (by simp)) _)
    | cons other others =>
      simp only [List.flatMap_cons, List.append_assoc] at same
      obtain ⟨rfl, later⟩ := delimits value (leftIn value (by simp)) other (rightIn other (by simp)) _ _ same
      obtain ⟨rfl, after⟩ := ih (fun item member => leftIn item (by simp [member]))
        (fun item member => rightIn item (by simp [member])) later
      exact ⟨rfl, after⟩

/-- Each element behind the tag of its section. -/
def sectionBytes (tag : UInt8) (encode : α → Bytes) (values : List α) : Bytes :=
  values.flatMap fun value => tag :: encode value

/-- A stream of sections with tags above a given one. -/
def SectionsAbove (tag : UInt8) (bytes : Bytes) : Prop := StopsAt (tag < ·) bytes

theorem sectionsAbove_section {tag later : UInt8} {encode : α → Bytes} {values : List α} {after : Bytes}
    (above : tag < later) (rest : SectionsAbove later after) :
    SectionsAbove tag (sectionBytes later encode values ++ after) := by
  cases values with
  | nil =>
    intro first member
    exact UInt8.lt_trans above (rest first member)
  | cons value values => exact stopsAt_cons above _

theorem sectionsAbove_lastSection {tag later : UInt8} {encode : α → Bytes} {values : List α} (above : tag < later) :
    SectionsAbove tag (sectionBytes later encode values) := by
  have ends := @sectionsAbove_section α tag later encode values [] above (stopsAt_nil _)
  simpa using ends

/-- A section ends where a higher tag starts. -/
theorem sectionBytes_inj {domain : Set α} {encode : α → Bytes} {tag : UInt8}
    (delimits : SelfDelimitingOn domain encode)
    (leftIn : ∀ value ∈ left, value ∈ domain) (rightIn : ∀ value ∈ right, value ∈ domain)
    (leftStops : SectionsAbove tag afterLeft) (rightStops : SectionsAbove tag afterRight)
    (same : sectionBytes tag encode left ++ afterLeft = sectionBytes tag encode right ++ afterRight) :
    left = right ∧ afterLeft = afterRight := by
  have tagged : SelfDelimitingOn domain fun value => tag :: encode value := by
    intro first firstIn second secondIn afterFirst afterSecond equal
    simp only [List.cons_append, List.cons.injEq, true_and] at equal
    exact delimits first firstIn second secondIn afterFirst afterSecond equal
  have inside : StartsInside (tag < ·) domain fun value => tag :: encode value :=
    fun value _ => ⟨tag, encode value, rfl, UInt8.lt_irrefl tag⟩
  exact tagged.flatMap_until inside leftIn rightIn leftStops rightStops same

end ByteCodec
