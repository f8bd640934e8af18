import DucklakeCatalog.KeyedStore.Fallible
import DucklakeCatalog.Wire.RuntimeProtocol

/-! What a frame was written from is what its reader finds in it. -/
namespace DucklakeCatalog.Wire

open ByteCodec KeyedStore

/-! ## Text -/

theorem textOf_utf8 (text : String) : textOf (utf8 text) = text := by
  have valid := text.isValidUTF8
  simp [textOf, utf8, String.fromUTF8?, valid, String.fromUTF8]

theorem utf8EncodeChar_ofNat {byte : UInt8} (ascii : byte.toNat < 128) :
    String.utf8EncodeChar (Char.ofNat byte.toNat) = [byte] := by
  have valid : byte.toNat.isValidChar := Or.inl (by omega)
  have made : Char.ofNat byte.toNat = Char.ofNatAux byte.toNat valid := dif_pos valid
  have code : (Char.ofNat byte.toNat).val.toNat = byte.toNat := by
    rw [made]
    rfl
  have small : byte.toNat ≤ 127 := by omega
  simp only [String.utf8EncodeChar, code, small, if_true]
  simp

theorem isUtf8_of_ascii {bytes : Bytes} (ascii : ∀ byte ∈ bytes, byte.toNat < 128) : isUtf8 bytes = true := by
  have encoded : (bytes.map fun byte => Char.ofNat byte.toNat).flatMap String.utf8EncodeChar = bytes := by
    induction bytes with
    | nil => rfl
    | cons byte rest ih =>
      have later := ih fun other member => ascii other (List.mem_cons_of_mem _ member)
      rw [List.map_cons, List.flatMap_cons, utf8EncodeChar_ofNat (ascii byte (List.mem_cons_self ..)), later]
      rfl
  apply ByteArray.validateUTF8_eq_true_iff.mpr
  refine ⟨bytes.map fun byte => Char.ofNat byte.toNat, ?_⟩
  apply ByteArray.ext
  simp [List.utf8Encode, encoded]

/-! ## Lines of a header -/

def unlines (lines : List Bytes) : Bytes := lines.flatMap (· ++ [newline])

theorem getLast_ne {line : Bytes} {stop : UInt8} (absent : ∀ byte ∈ line, byte ≠ stop) : line.getLast? ≠ some stop := by
  intro last
  exact absent stop (List.mem_of_getLast? last) rfl

/-- A line of a header as this protocol writes it. -/
def IsHeaderLine (line : Bytes) : Prop := line ≠ [] ∧ Graphic line

namespace IsHeaderLine

variable {line : Bytes} (plain : IsHeaderLine line)
include plain

theorem ne_newline {byte : UInt8} (member : byte ∈ line) : byte ≠ newline := by
  intro same
  have low := (plain.2 byte member).1
  rw [same] at low
  exact absurd low (by decide)

theorem ne_carriageReturn {byte : UInt8} (member : byte ∈ line) : byte ≠ carriageReturn := by
  intro same
  have low := (plain.2 byte member).1
  rw [same] at low
  exact absurd low (by decide)

theorem stripLineEnd_self : stripLineEnd line = line := by
  have last := getLast_ne fun _ => plain.ne_newline
  simp only [stripLineEnd, last, if_false]

theorem stripLineEnd_terminated : stripLineEnd (line ++ [newline]) = line := by
  have last := getLast_ne fun _ => plain.ne_carriageReturn
  simp [stripLineEnd, last]

end IsHeaderLine

theorem separatorPosition_line {line rest : Bytes} (clean : ∀ byte ∈ line, byte ≠ newline) :
    separatorPosition (line ++ newline :: rest) = (separatorPosition (newline :: rest)).map (· + line.length) := by
  induction line with
  | nil => simp
  | cons byte line ih =>
    have different := clean byte (List.mem_cons_self ..)
    have later := ih fun other member => clean other (List.mem_cons_of_mem _ member)
    cases line with
    | nil =>
      simp only [List.nil_append, List.cons_append, separatorPosition, different, false_and, if_false]
      simp
    | cons next line =>
      simp only [List.cons_append, separatorPosition, different, false_and, if_false] at later ⊢
      rw [later]
      cases separatorPosition (newline :: rest) <;> simp [Nat.add_assoc]

theorem splitInclusive_line {line rest : Bytes} (clean : ∀ byte ∈ line, byte ≠ newline) :
    splitInclusive (line ++ newline :: rest) = (line ++ [newline]) :: splitInclusive rest := by
  induction line with
  | nil => simp [splitInclusive]
  | cons byte line ih =>
    have different := clean byte (List.mem_cons_self ..)
    have later := ih fun other member => clean other (List.mem_cons_of_mem _ member)
    simp only [List.cons_append, splitInclusive, different, if_false, later]

theorem splitInclusive_last {line : Bytes} (nonempty : line ≠ []) (clean : ∀ byte ∈ line, byte ≠ newline) :
    splitInclusive line = [line] := by
  induction line with
  | nil => exact absurd rfl nonempty
  | cons byte line ih =>
    have different := clean byte (List.mem_cons_self ..)
    simp only [splitInclusive, different, if_false]
    cases line with
    | nil => simp [splitInclusive]
    | cons next line =>
      rw [ih (by simp) fun other member => clean other (List.mem_cons_of_mem _ member)]

/-- The lines of the header, without the newline that ends the last of them. -/
def headerText (lines : List Bytes) : Bytes := (unlines lines).dropLast

theorem headerText_cons (first second : Bytes) (rest : List Bytes) :
    headerText (first :: second :: rest) = first ++ newline :: headerText (second :: rest) := by
  have nonempty : unlines (second :: rest) ≠ [] := by simp [unlines]
  simp only [headerText]
  rw [show unlines (first :: second :: rest) = first ++ newline :: unlines (second :: rest) by simp [unlines],
    List.dropLast_append_of_ne_nil (by simp), List.dropLast_cons_of_ne_nil nonempty]

theorem headerText_singleton (line : Bytes) : headerText [line] = line := by simp [headerText, unlines]

theorem unlines_eq {lines : List Bytes} (nonempty : lines ≠ []) : unlines lines = headerText lines ++ [newline] := by
  induction lines with
  | nil => exact absurd rfl nonempty
  | cons line rest ih =>
    cases rest with
    | nil => simp [headerText_singleton, unlines]
    | cons next rest =>
      rw [headerText_cons, List.append_assoc, List.cons_append, ← ih (by simp)]
      simp [unlines]

theorem payloadLines_headerText {lines : List Bytes} (plain : ∀ line ∈ lines, IsHeaderLine line) :
    payloadLines (headerText lines) = lines := by
  induction lines with
  | nil => rfl
  | cons line rest ih =>
    have own := plain line (List.mem_cons_self ..)
    cases rest with
    | nil =>
      rw [headerText_singleton, payloadLines, splitInclusive_last own.1 fun _ => own.ne_newline, List.map_singleton,
        own.stripLineEnd_self]
    | cons next rest =>
      have later := ih fun other member => plain other (List.mem_cons_of_mem _ member)
      rw [payloadLines] at later
      rw [headerText_cons, payloadLines, splitInclusive_line fun _ => own.ne_newline, List.map_cons,
        own.stripLineEnd_terminated, later]

/-- The first blank line of a frame is the one its writer put there. -/
theorem separatorPosition_frame {lines : List Bytes} (nonempty : lines ≠ [])
    (plain : ∀ line ∈ lines, IsHeaderLine line) (payload : Bytes) :
    separatorPosition (headerText lines ++ newline :: newline :: payload) = some (headerText lines).length := by
  induction lines with
  | nil => exact absurd rfl nonempty
  | cons line rest ih =>
    have own := plain line (List.mem_cons_self ..)
    cases rest with
    | nil =>
      rw [headerText_singleton, separatorPosition_line fun _ => own.ne_newline]
      simp [separatorPosition]
    | cons next rest =>
      have later := ih (by simp) fun other member => plain other (List.mem_cons_of_mem _ member)
      have following := plain next (by simp)
      rw [headerText_cons, List.append_assoc, List.cons_append, separatorPosition_line fun _ => own.ne_newline]
      -- the next line starts with a byte of its own, so no blank line begins here
      obtain ⟨byte, tail, starts⟩ : ∃ byte tail, headerText (next :: rest) = byte :: tail ∧ byte ≠ newline := by
        obtain ⟨byte, tail, same⟩ := List.exists_cons_of_ne_nil following.1
        have different : byte ≠ newline := following.ne_newline (by simp [same])
        cases rest with
        | nil => exact ⟨byte, tail, by rw [headerText_singleton, same], different⟩
        | cons third rest => exact ⟨byte, tail ++ newline :: headerText (third :: rest), by
            rw [headerText_cons, same]; rfl, different⟩
      rw [starts.1, List.cons_append] at later ⊢
      simp only [separatorPosition, starts.2, and_false, if_false, later, Option.map_some, List.length_append,
        List.length_cons]
      congr 1
      omega

theorem splitFrame_frame {lines : List Bytes} (nonempty : lines ≠ []) (plain : ∀ line ∈ lines, IsHeaderLine line)
    (payload : Bytes) : splitFrame (frame lines payload) = .ok (headerText lines, payload) := by
  have written : frame lines payload = headerText lines ++ newline :: newline :: payload := by
    have body := unlines_eq nonempty
    rw [unlines] at body
    rw [frame, body, List.append_assoc]
    rfl
  have ascii : ∀ byte ∈ headerText lines, byte.toNat < 128 := by
    intro byte member
    obtain ⟨line, inLines, inLine⟩ := List.mem_flatMap.mp ((List.dropLast_subset _) member)
    rcases List.mem_append.mp inLine with own | terminator
    · have bounds := (plain line inLines).2 byte own
      omega
    · rw [List.mem_singleton.mp terminator]
      exact (by decide : newline.toNat < 128)
  simp only [splitFrame, written, separatorPosition_frame nonempty plain, List.take_left', isUtf8_of_ascii ascii,
    if_true]
  simp

end DucklakeCatalog.Wire
