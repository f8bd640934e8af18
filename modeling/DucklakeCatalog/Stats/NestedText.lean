import DucklakeCatalog.Stats.ScalarSpellings

/-! Lists and structs as text: how they are written, and how their parts are read back. -/
namespace DucklakeCatalog

def quoteMark : Char := Char.ofNat 39

/-! ## Reading -/

/-- What the characters seen so far leave: the parts that ended, and the one that has not. -/
structure TopLevelScan where
  parts : List (List Char) := []
  current : List Char := []
  quote : Bool := false
  depth : Nat := 0
  deriving DecidableEq, Repr

namespace TopLevelScan

def keep (scan : TopLevelScan) (ch : Char) : TopLevelScan := { scan with current := scan.current ++ [ch] }

def step (scan : TopLevelScan) (ch : Char) : TopLevelScan :=
  if ch = quoteMark then { scan.keep ch with quote := !scan.quote }
  else if ch ∈ ['[', '{'] ∧ scan.quote = false then { scan.keep ch with depth := scan.depth + 1 }
  else if ch ∈ [']', '}'] ∧ scan.quote = false ∧ 0 < scan.depth then { scan.keep ch with depth := scan.depth - 1 }
  else if ch = ',' ∧ scan.quote = false ∧ scan.depth = 0 then
    { scan with parts := scan.parts ++ [trimmed scan.current], current := [] }
  else scan.keep ch

def run (scan : TopLevelScan) (value : List Char) : TopLevelScan := value.foldl step scan

end TopLevelScan

def splitInlineTopLevel (value : List Char) : List (List Char) :=
  let scan := TopLevelScan.run {} value
  let tail := trimmed scan.current
  if tail = [] then scan.parts else scan.parts ++ [tail]

/-- `replace` of two quotes by one. -/
def undoubled : List Char → List Char
  | first :: second :: rest =>
    if first = quoteMark ∧ second = quoteMark then quoteMark :: undoubled rest
    else first :: undoubled (second :: rest)
  | rest => rest

def unquoteInlineScalar (value : List Char) : List Char :=
  let trimmed := trimmed value
  if 2 ≤ trimmed.length ∧ trimmed.head? = some quoteMark ∧ trimmed.getLast? = some quoteMark then
    undoubled trimmed.tail.dropLast
  else trimmed

/-- What stands between the two characters that open and close the text. -/
def stripEnclosing (opening closing : Char) (value : List Char) : Option (List Char) :=
  match value with
  | [] => none
  | first :: rest =>
    if first = opening ∧ rest.getLast? = some closing then some rest.dropLast else none

def parseInlineListValues (value : List Char) : List (List Char) :=
  ((stripEnclosing '[' ']' (trimmed value)).map splitInlineTopLevel).getD []

/-- The name before the first colon, and the value after it. -/
def parseInlineStructField (field : List Char) : Option (List Char × List Char) :=
  match field.dropWhile (· ≠ ':') with
  | [] => none
  | _ :: value => some (unquoteInlineScalar (trimmed (field.takeWhile (· ≠ ':'))), trimmed value)

def parseInlineStructValues (value : List Char) : List (List Char × List Char) :=
  ((stripEnclosing '{' '}' (trimmed value)).map fun inner =>
    (splitInlineTopLevel inner).filterMap parseInlineStructField).getD []

/-- Any spelling of NULL. -/
def isNullText (value : List Char) : Bool := value.map Char.toUpper = "NULL".toList

/-! ## Writing -/

/-- A value that a list or a struct holds. -/
inductive ChildValue where
  | integer (value : Int)
  | text (value : String)
  deriving DecidableEq, Repr

def doubled (text : List Char) : List Char := text.flatMap fun ch => if ch = quoteMark then [ch, ch] else [ch]

def quoted (text : List Char) : List Char := quoteMark :: (doubled text ++ [quoteMark])

/-- Quotes, commas, brackets and braces. -/
def structural : List Char := [quoteMark, ',', '[', ']', '{', '}']

def needsQuotes (text : List Char) : Bool :=
  text = [] || isNullText text || text.any (· ∈ ':' :: structural) || trimmed text ≠ text

def integerText (value : Int) : List Char :=
  if value < 0 then '-' :: Nat.toDigits 10 value.natAbs else Nat.toDigits 10 value.natAbs

/-- The text of a value by itself. -/
def ChildValue.spelled : ChildValue → List Char
  | integer value => integerText value
  | text value => value.toList

/-- Texts are quoted where they could be misread. -/
def ChildValue.render : ChildValue → List Char
  | integer value => integerText value
  | text value => if needsQuotes value.toList then quoted value.toList else value.toList

def listSeparator : List Char := ", ".toList

def renderItem : Option ChildValue → List Char
  | none => "NULL".toList
  | some value => value.render

def renderList (items : List (Option ChildValue)) : List Char :=
  '[' :: (List.intercalate listSeparator (items.map renderItem) ++ [']'])

def renderField (field : List Char × Option ChildValue) : List Char :=
  quoted field.1 ++ ": ".toList ++ renderItem field.2

def renderStruct (fields : List (List Char × Option ChildValue)) : List Char :=
  '{' :: (List.intercalate listSeparator (fields.map renderField) ++ ['}'])

/-! ## Blanks around a text -/

theorem quoteMark_printed : isWhiteSpace quoteMark = false := rfl

variable {text : List Char} {ch : Char}

theorem trimmed_eq_self_iff :
    trimmed text = text ↔
      (∀ ch ∈ text.head?, isWhiteSpace ch = false) ∧ ∀ ch ∈ text.getLast?, isWhiteSpace ch = false := by
  constructor
  · intro same
    have front : text.dropWhile isWhiteSpace = text := by
      apply (List.dropWhile_suffix _).eq_of_length_le
      calc text.length = (trimmed text).length := by rw [same]
        _ ≤ (text.dropWhile isWhiteSpace).length := (List.rdropWhile_prefix _ _).length_le
    rw [trimmed, front, List.rdropWhile_eq_self_iff] at same
    constructor
    · intro ch head
      have kept := List.head?_dropWhile_not isWhiteSpace text
      rw [front, Option.mem_def.mp head] at kept
      exact kept
    · intro ch last
      obtain ⟨some, rfl⟩ := List.mem_getLast?_eq_getLast last
      exact Bool.eq_false_iff.mpr (same some)
  · rintro ⟨head, last⟩
    have front : text.dropWhile isWhiteSpace = text := by
      cases text with
      | nil => rfl
      | cons first rest => exact List.dropWhile_cons_of_neg (Bool.eq_false_iff.mp (head first rfl))
    rw [trimmed, front, List.rdropWhile_eq_self_iff]
    intro some
    exact Bool.eq_false_iff.mp (last _ (List.getLast_mem_getLast? some))

theorem space_blank : ∀ ch ∈ [' '], isWhiteSpace ch = true := List.forall_mem_singleton.mpr rfl

theorem trimmed_blank_append {front : List Char} (blank : ∀ ch ∈ front, isWhiteSpace ch = true) (text : List Char) :
    trimmed (front ++ text) = trimmed text := by
  rw [trimmed, List.dropWhile_append_of_pos blank, trimmed]

theorem mem_trimmed (member : ch ∈ text) (printed : isWhiteSpace ch = false) :
    ch ∈ trimmed text := by
  obtain ⟨before, after, padded, blank⟩ := exists_padded text
  have outside : ch ∉ before ++ after := by
    intro outer
    rw [blank ch outer] at printed
    cases printed
  rw [padded] at member
  simp only [List.mem_append, not_or] at member outside
  exact (member.resolve_right outside.2).resolve_left outside.1

/-! ## Quotes -/

theorem undoubled_cons (unquoted : ch ≠ quoteMark) (rest : List Char) :
    undoubled (ch :: rest) = ch :: undoubled rest := by
  cases rest with
  | nil => rfl
  | cons second rest => rw [undoubled, if_neg (fun both => unquoted both.1)]

theorem undoubled_doubled (text : List Char) : undoubled (doubled text) = text := by
  induction text with
  | nil => rfl
  | cons ch rest ih =>
    rw [doubled, List.flatMap_cons]
    by_cases mark : ch = quoteMark
    · rw [if_pos mark, mark, List.cons_append, List.singleton_append, undoubled, if_pos ⟨rfl, rfl⟩]
      exact congrArg (quoteMark :: ·) ih
    · rw [if_neg mark, List.singleton_append, undoubled_cons mark]
      exact congrArg (ch :: ·) ih

theorem mem_undoubled (member : ch ∈ undoubled text) : ch ∈ text := by
  induction text using undoubled.induct with
  | case1 first second rest both ih =>
    rw [undoubled, if_pos both] at member
    rcases List.mem_cons.mp member with rfl | later
    · exact both.1 ▸ List.mem_cons_self
    · exact List.mem_cons_of_mem _ (List.mem_cons_of_mem _ (ih later))
  | case2 first second rest single ih =>
    rw [undoubled, if_neg single] at member
    rcases List.mem_cons.mp member with rfl | later
    · exact List.mem_cons_self
    · exact List.mem_cons_of_mem _ (ih later)
  | case3 rest short =>
    rw [undoubled.eq_2 _ short] at member
    exact member

theorem mem_doubled : ch ∈ doubled text ↔ ch ∈ text := by
  rw [doubled, List.mem_flatMap]
  constructor
  · rintro ⟨other, member, same⟩
    split at same <;> simp_all
  · intro member
    refine ⟨ch, member, ?_⟩
    split <;> simp

theorem trimmed_quoted (text : List Char) : trimmed (quoted text) = quoted text := by
  rw [trimmed_eq_self_iff, quoted, List.head?_cons, ← List.cons_append, List.getLast?_concat]
  constructor
  · rintro _ ⟨⟩
    exact quoteMark_printed
  · rintro _ ⟨⟩
    exact quoteMark_printed

theorem unquote_quoted (text : List Char) : unquoteInlineScalar (quoted text) = text := by
  rw [unquoteInlineScalar, trimmed_quoted]
  have closed : (quoted text).getLast? = some quoteMark := by
    rw [quoted, ← List.cons_append, List.getLast?_concat]
  have sized : 2 ≤ (quoted text).length := by
    rw [quoted, List.length_cons, List.length_append, List.length_singleton]
    omega
  rw [if_pos ⟨sized, rfl, closed⟩, quoted, List.tail_cons, List.dropLast_concat, undoubled_doubled]

/-! ## Values by themselves -/

theorem toNat_of_integerText {value : Int} (member : ch ∈ integerText value) :
    45 ≤ ch.toNat ∧ ch.toNat ≤ 57 ∧ ch.toNat ≠ 47 := by
  have digit : ∀ ch ∈ Nat.toDigits 10 value.natAbs, 48 ≤ ch.toNat ∧ ch.toNat ≤ 57 := fun ch member =>
    toNat_of_isDigit (Nat.isDigit_of_mem_toDigits (by decide) (by decide) member)
  rw [integerText] at member
  split_ifs at member
  · rcases List.mem_cons.mp member with rfl | later
    · decide
    · have := digit ch later
      omega
  · have := digit ch member
    omega

theorem integerText_ne_nil (value : Int) : integerText value ≠ [] := by
  rw [integerText]
  split_ifs
  · exact List.cons_ne_nil _ _
  · exact Nat.toDigits_ne_nil

theorem toUpper_of_small (small : ch.toNat < 97) : ch.toUpper = ch := by
  refine dif_neg ?_
  rintro ⟨above, _⟩
  have lowest : 97 ≤ ch.toNat := UInt32.le_iff_toNat_le.mp above
  omega

theorem ne_of_toNat {other : Char} (different : ch.toNat ≠ other.toNat) : ch ≠ other := fun same =>
  different (congrArg Char.toNat same)

theorem needsQuotes_integerText (value : Int) : needsQuotes (integerText value) = false := by
  have range : ∀ {ch}, ch ∈ integerText value → 45 ≤ ch.toNat ∧ ch.toNat ≤ 57 ∧ ch.toNat ≠ 47 := toNat_of_integerText
  have printed : ∀ ch ∈ integerText value, isWhiteSpace ch = false := by
    intro ch member
    have small := range member
    exact isWhiteSpace_of_printed (by omega)
  have trims : trimmed (integerText value) = integerText value := by
    rw [trimmed_eq_self_iff]
    exact ⟨fun ch head => printed ch (List.mem_of_head? head), fun ch last => printed ch (List.mem_of_getLast? last)⟩
  have notNull : isNullText (integerText value) = false := by
    rw [isNullText, decide_eq_false_iff_not]
    intro spells
    obtain ⟨first, rest, split⟩ := List.exists_cons_of_ne_nil (integerText_ne_nil value)
    have small := range (split ▸ List.mem_cons_self : first ∈ integerText value)
    rw [split, List.map_cons, toUpper_of_small (by omega)] at spells
    have letter : first = 'N' := (List.cons.inj spells).1
    rw [letter] at small
    exact absurd small (by decide)
  have plain : (integerText value).any (· ∈ ':' :: structural) = false := by
    rw [List.any_eq_false]
    intro ch member
    have small := range member
    simp only [structural, List.mem_cons, List.not_mem_nil, or_false, decide_eq_true_eq, not_or]
    have codes : ':'.toNat = 58 ∧ quoteMark.toNat = 39 ∧ ','.toNat = 44 ∧ '['.toNat = 91 ∧ ']'.toNat = 93 ∧
        '{'.toNat = 123 ∧ '}'.toNat = 125 := by decide
    exact ⟨ne_of_toNat (by omega), ne_of_toNat (by omega), ne_of_toNat (by omega), ne_of_toNat (by omega),
      ne_of_toNat (by omega), ne_of_toNat (by omega), ne_of_toNat (by omega)⟩
  simp only [needsQuotes, integerText_ne_nil, notNull, plain, trims, decide_false, Bool.or_false, ne_eq, not_true]

/-- Integers never need quotes, so all values are written alike. -/
theorem ChildValue.render_eq (value : ChildValue) :
    value.render = if needsQuotes value.spelled then quoted value.spelled else value.spelled := by
  cases value with
  | integer value =>
    rw [spelled, needsQuotes_integerText]
    rfl
  | text value => rfl

/-- A text that does not need quotes. -/
structure Plain (text : List Char) : Prop where
  nonempty : text ≠ []
  notNull : isNullText text = false
  flat : ∀ ch ∈ text, ch ∉ structural
  uncolon : ':' ∉ text
  trims : trimmed text = text

theorem plain_of_needsNone (needsNone : needsQuotes text = false) : Plain text := by
  simp only [needsQuotes, Bool.or_eq_false_iff, decide_eq_false_iff_not, List.any_eq_false, decide_eq_true_eq,
    List.mem_cons, not_or, not_not] at needsNone
  obtain ⟨⟨⟨nonempty, notNull⟩, flat⟩, trims⟩ := needsNone
  exact ⟨nonempty, notNull, fun ch member => (flat ch member).2, fun member => (flat _ member).1 rfl, trims⟩

theorem isNullText_marked (rest : List Char) : isNullText (quoteMark :: rest) = false := by
  rw [isNullText, decide_eq_false_iff_not, List.map_cons]
  intro spells
  exact absurd (List.cons.inj spells).1 (by decide)

/-- What is written for a value is not NULL, is trimmed, and reads back as the value. -/
theorem ChildValue.render_reads (value : ChildValue) :
    value.render ≠ [] ∧ isNullText value.render = false ∧ trimmed value.render = value.render ∧
      unquoteInlineScalar value.render = value.spelled := by
  rw [render_eq]
  by_cases needs : needsQuotes value.spelled = true
  · rw [if_pos needs]
    exact ⟨List.cons_ne_nil _ _, isNullText_marked _, trimmed_quoted _, unquote_quoted _⟩
  · have plain := plain_of_needsNone (Bool.eq_false_iff.mpr needs)
    rw [if_neg needs]
    refine ⟨plain.nonempty, plain.notNull, plain.trims, ?_⟩
    have unmarked : value.spelled.head? ≠ some quoteMark := by
      intro marked
      exact plain.flat _ (List.mem_of_head? marked) List.mem_cons_self
    rw [unquoteInlineScalar, plain.trims, if_neg (fun enclosed => unmarked enclosed.2.1)]

/-! ## Parts of a list or a struct -/

/-- The scanner goes on over the text without ending a part. -/
def Passes (text : List Char) : Prop :=
  ∀ scan : TopLevelScan, scan.quote = false → scan.depth = 0 →
    scan.run text = { scan with current := scan.current ++ text }

theorem Passes.append {first second : List Char} (passesFirst : Passes first) (passesSecond : Passes second) :
    Passes (first ++ second) := by
  intro scan unquoted flat
  rw [TopLevelScan.run, List.foldl_append]
  have run := passesFirst scan unquoted flat
  rw [TopLevelScan.run] at run
  rw [run]
  have later := passesSecond { scan with current := scan.current ++ first } unquoted flat
  rw [TopLevelScan.run] at later
  rw [later, List.append_assoc]

theorem passes_flat (flat : ∀ ch ∈ text, ch ∉ structural) : Passes text := by
  induction text with
  | nil =>
    intro scan _ _
    rw [TopLevelScan.run, List.foldl_nil, List.append_nil]
  | cons ch rest ih =>
    have one : Passes [ch] := by
      intro scan unquoted level
      have plain := flat ch List.mem_cons_self
      simp only [structural, List.mem_cons, List.not_mem_nil, or_false, not_or] at plain
      obtain ⟨notMark, notComma, notOpen, notClose, notLeft, notRight⟩ := plain
      simp only [TopLevelScan.run, List.foldl_cons, List.foldl_nil, TopLevelScan.step, TopLevelScan.keep, notMark,
        notComma, notOpen, notClose, notLeft, notRight, List.mem_cons, List.not_mem_nil, or_self, false_and, if_false]
    exact one.append (ih fun other member => flat other (List.mem_cons_of_mem _ member))

/-- Inside quotes nothing ends a part, and doubled quotes do not end the quotes. -/
theorem run_doubled (text : List Char) (scan : TopLevelScan) (inside : scan.quote = true) :
    scan.run (doubled text) = { scan with current := scan.current ++ doubled text } := by
  induction text generalizing scan with
  | nil =>
    rw [doubled, List.flatMap_nil, TopLevelScan.run, List.foldl_nil, List.append_nil]
  | cons ch rest ih =>
    rw [doubled, List.flatMap_cons, ← doubled, TopLevelScan.run, List.foldl_append]
    by_cases mark : ch = quoteMark
    · have twice : List.foldl TopLevelScan.step scan [quoteMark, quoteMark] =
          { scan with current := scan.current ++ [quoteMark, quoteMark] } := by
        simp only [List.foldl_cons, List.foldl_nil, TopLevelScan.step, TopLevelScan.keep, if_true, Bool.not_not,
          List.append_assoc, List.cons_append, List.nil_append]
      rw [if_pos mark, mark, twice]
      have later := ih { scan with current := scan.current ++ [quoteMark, quoteMark] } inside
      rw [TopLevelScan.run] at later
      rw [later, List.append_assoc]
    · have once : List.foldl TopLevelScan.step scan [ch] = { scan with current := scan.current ++ [ch] } := by
        simp only [List.foldl_cons, List.foldl_nil, TopLevelScan.step, TopLevelScan.keep, mark, inside, if_false,
          Bool.true_eq_false, false_and, and_false]
      rw [if_neg mark, once]
      have later := ih { scan with current := scan.current ++ [ch] } inside
      rw [TopLevelScan.run] at later
      rw [later, List.append_assoc]

theorem passes_quoted (text : List Char) : Passes (quoted text) := by
  intro scan unquoted flat
  rw [quoted, TopLevelScan.run, List.foldl_cons, List.foldl_append]
  have opened : scan.step quoteMark = { scan with current := scan.current ++ [quoteMark], quote := true } := by
    simp only [TopLevelScan.step, TopLevelScan.keep, if_true, unquoted, Bool.not_false]
  have inner := run_doubled text { scan with current := scan.current ++ [quoteMark], quote := true } rfl
  rw [TopLevelScan.run] at inner
  rw [opened, inner]
  simp only [List.foldl_cons, List.foldl_nil, TopLevelScan.step, TopLevelScan.keep, if_true, Bool.not_true, unquoted,
    List.append_assoc, List.cons_append, List.nil_append]

theorem ChildValue.render_passes (value : ChildValue) : Passes value.render := by
  rw [render_eq]
  by_cases needs : needsQuotes value.spelled = true
  · rw [if_pos needs]
    exact passes_quoted _
  · rw [if_neg needs]
    exact passes_flat (plain_of_needsNone (Bool.eq_false_iff.mpr needs)).flat

/-- From the start of a part, the scanner finds the parts that follow. -/
theorem run_intercalate {parts : List (List Char)} (passes : ∀ part ∈ parts, Passes part) (front : List Char)
    (blank : ∀ ch ∈ front, isWhiteSpace ch = true) (before : List (List Char)) (some : parts ≠ []) :
    ∃ last, (TopLevelScan.run ⟨before, front, false, 0⟩ (List.intercalate listSeparator parts)) =
      ⟨before ++ (parts.dropLast.map trimmed), last, false, 0⟩ ∧ trimmed last = trimmed (parts.getLast some) := by
  induction parts generalizing front before with
  | nil => exact absurd rfl some
  | cons part rest ih =>
    have passed := passes part List.mem_cons_self ⟨before, front, false, 0⟩ rfl rfl
    cases rest with
    | nil =>
      refine ⟨front ++ part, ?_, trimmed_blank_append blank part⟩
      rw [List.intercalate_singleton, passed, List.dropLast_singleton, List.map_nil, List.append_nil]
    | cons next rest =>
      have ends : List.foldl TopLevelScan.step ⟨before, front ++ part, false, 0⟩ listSeparator =
          ⟨before ++ [trimmed part], [' '], false, 0⟩ := by
        rw [← trimmed_blank_append blank part]
        rfl
      obtain ⟨last, reached, same⟩ := ih (fun other member => passes other (List.mem_cons_of_mem _ member)) [' ']
        space_blank (before ++ [trimmed part]) (List.cons_ne_nil _ _)
      refine ⟨last, ?_, same⟩
      rw [List.intercalate_cons_cons, TopLevelScan.run, List.append_assoc, List.foldl_append]
      rw [TopLevelScan.run] at passed reached
      rw [passed, List.foldl_append, ends, reached, List.append_assoc, List.dropLast_cons_cons, List.map_cons]
      rfl

/-- Parts that are not blank are found again, without the blanks around them. -/
theorem splitInlineTopLevel_intercalate {parts : List (List Char)} (passes : ∀ part ∈ parts, Passes part)
    (printed : ∀ part ∈ parts, trimmed part ≠ []) :
    splitInlineTopLevel (List.intercalate listSeparator parts) = parts.map trimmed := by
  by_cases empty : parts = []
  · subst empty
    rfl
  · obtain ⟨last, reached, same⟩ := run_intercalate passes [] (by simp) [] empty
    have ends := printed _ (List.getLast_mem empty)
    simp only [splitInlineTopLevel]
    rw [show ({} : TopLevelScan) = ⟨[], [], false, 0⟩ from rfl, reached]
    simp only [same, ends, if_false, List.nil_append]
    rw [← List.map_singleton, ← List.map_append, List.dropLast_append_getLast]

/-! ## Lists and structs read back -/

theorem renderItem_reads (value : Option ChildValue) :
    Passes (renderItem value) ∧ renderItem value ≠ [] ∧ trimmed (renderItem value) = renderItem value := by
  cases value with
  | none =>
    refine ⟨passes_flat ?_, List.cons_ne_nil _ _, rfl⟩
    intro ch member
    have flat : (renderItem none).all (fun ch => decide (ch ∉ structural)) = true := rfl
    exact of_decide_eq_true (List.all_eq_true.mp flat ch member)
  | some value =>
    obtain ⟨nonempty, _, trims, _⟩ := value.render_reads
    exact ⟨value.render_passes, nonempty, trims⟩

theorem stripEnclosing_enclosed (opening closing : Char) (inner : List Char) :
    stripEnclosing opening closing (opening :: (inner ++ [closing])) = some inner := by
  rw [stripEnclosing, if_pos ⟨rfl, List.getLast?_concat⟩, List.dropLast_concat]

theorem trimmed_enclosed {opening closing : Char} (printedOpening : isWhiteSpace opening = false)
    (printedClosing : isWhiteSpace closing = false) (inner : List Char) :
    trimmed (opening :: (inner ++ [closing])) = opening :: (inner ++ [closing]) := by
  rw [trimmed_eq_self_iff, List.head?_cons, ← List.cons_append, List.getLast?_concat]
  constructor
  · rintro _ ⟨⟩
    exact printedOpening
  · rintro _ ⟨⟩
    exact printedClosing

theorem parseInlineListValues_renderList (items : List (Option ChildValue)) :
    parseInlineListValues (renderList items) = items.map renderItem := by
  rw [parseInlineListValues, renderList, trimmed_enclosed rfl rfl, stripEnclosing_enclosed, Option.map_some,
    Option.getD_some, splitInlineTopLevel_intercalate]
  · rw [List.map_map]
    exact List.map_congr_left fun value _ => (renderItem_reads value).2.2
  · intro part member
    obtain ⟨value, _, rfl⟩ := List.mem_map.mp member
    exact (renderItem_reads value).1
  · intro part member
    obtain ⟨value, _, rfl⟩ := List.mem_map.mp member
    rw [(renderItem_reads value).2.2]
    exact (renderItem_reads value).2.1

/-- The name that a field is read under: names are cut at the first colon before they are unquoted. -/
def cutName (name : List Char) : List Char :=
  unquoteInlineScalar (trimmed ((quoted name).takeWhile (· ≠ ':')))

theorem mem_quoted : ch ∈ quoted text ↔ ch = quoteMark ∨ ch ∈ text := by
  rw [quoted, List.mem_cons, List.mem_append, mem_doubled, List.mem_singleton]
  tauto

theorem takeWhile_quoted {name : List Char} (whole : ':' ∉ name) :
    (quoted name).takeWhile (· ≠ ':') = quoted name := by
  rw [List.takeWhile_eq_self_iff]
  intro ch member
  rw [decide_eq_true_eq]
  rintro rfl
  rcases mem_quoted.mp member with impossible | listed
  · exact absurd impossible (by decide)
  · exact whole listed

theorem cutName_whole {name : List Char} (whole : ':' ∉ name) : cutName name = name := by
  rw [cutName, takeWhile_quoted whole, trimmed_quoted, unquote_quoted]

theorem isNullText_of_mark (marked : quoteMark ∈ text) : isNullText text = false := by
  rw [isNullText, decide_eq_false_iff_not]
  intro spells
  have listed : quoteMark.toUpper ∈ text.map Char.toUpper := List.mem_map_of_mem marked
  rw [spells] at listed
  exact absurd listed (by decide)

/-- A field is read under its cut name; the value is the one written when the name was not cut, and part of the name
when it was. -/
theorem parseInlineStructField_renderField (name : List Char) (value : Option ChildValue) :
    ∃ text, parseInlineStructField (renderField (name, value)) = some (cutName name, text) ∧
      (':' ∉ name → text = renderItem value) ∧ (':' ∈ name → quoteMark ∈ text) := by
  have shape : renderField (name, value) = quoted name ++ ':' :: ' ' :: renderItem value := by
    rw [renderField, List.append_assoc]
    rfl
  by_cases colon : ':' ∈ name
  · have inside : (quoted name).dropWhile (· ≠ ':') ≠ [] := by
      rw [ne_eq, List.dropWhile_eq_nil_iff]
      intro all
      exact of_decide_eq_true (all ':' (mem_quoted.mpr (Or.inr colon))) rfl
    obtain ⟨first, rest, split⟩ := List.exists_cons_of_ne_nil inside
    have isColon : first = ':' := by
      have stops := List.head?_dropWhile_not (fun ch => decide (ch ≠ ':')) (quoted name)
      rw [split] at stops
      simpa using stops
    have closing : quoteMark ∈ rest := by
      have last : (quoted name).getLast? = some quoteMark := by
        rw [quoted, ← List.cons_append, List.getLast?_concat]
      rw [← List.takeWhile_append_dropWhile (p := fun ch => decide (ch ≠ ':')) (l := quoted name),
        List.getLast?_append_of_ne_nil _ inside, split] at last
      rcases List.mem_cons.mp (List.mem_of_getLast? last) with same | member
      · exact absurd (same.trans isColon) (by decide)
      · exact member
    have front : (renderField (name, value)).takeWhile (· ≠ ':') = (quoted name).takeWhile (· ≠ ':') := by
      rw [shape, List.takeWhile_append, if_neg]
      intro whole
      have all := List.takeWhile_eq_self_iff.mp ((List.takeWhile_prefix _).eq_of_length whole)
      exact inside (List.dropWhile_eq_nil_iff.mpr all)
    have back : (renderField (name, value)).dropWhile (· ≠ ':') = ':' :: (rest ++ ':' :: ' ' :: renderItem value) := by
      rw [shape, List.dropWhile_append, split, isColon]
      rfl
    refine ⟨trimmed (rest ++ ':' :: ' ' :: renderItem value), ?_, fun whole => absurd colon whole, fun _ => ?_⟩
    · rw [parseInlineStructField, back, front]
      rfl
    · exact mem_trimmed (List.mem_append_left _ closing) quoteMark_printed
  · have all := takeWhile_quoted colon
    have front : (renderField (name, value)).takeWhile (· ≠ ':') = quoted name := by
      rw [shape, List.takeWhile_append, all, if_pos rfl]
      exact List.append_nil _
    have back : (renderField (name, value)).dropWhile (· ≠ ':') = ':' :: ' ' :: renderItem value := by
      have emptied : (quoted name).dropWhile (· ≠ ':') = [] := by
        rw [List.dropWhile_eq_nil_iff]
        exact List.takeWhile_eq_self_iff.mp all
      rw [shape, List.dropWhile_append, emptied]
      rfl
    refine ⟨renderItem value, ?_, fun _ => rfl, fun impossible => absurd impossible colon⟩
    rw [parseInlineStructField, back, front]
    have trims : trimmed (' ' :: renderItem value) = renderItem value := by
      rw [← List.singleton_append, trimmed_blank_append space_blank, (renderItem_reads value).2.2]
    rw [cutName, all]
    simp only [trims]

theorem trimmed_renderField (field : List Char × Option ChildValue) :
    trimmed (renderField field) = renderField field := by
  rw [trimmed_eq_self_iff, renderField]
  have item := (renderItem_reads field.2)
  constructor
  · rw [quoted, List.cons_append, List.cons_append, List.head?_cons]
    rintro _ ⟨⟩
    exact quoteMark_printed
  · rw [List.getLast?_append_of_ne_nil _ item.2.1]
    exact (trimmed_eq_self_iff.mp item.2.2).2

theorem renderField_passes (field : List Char × Option ChildValue) : Passes (renderField field) := by
  have colon : Passes ": ".toList := by
    apply passes_flat
    intro ch member
    have flat : ": ".toList.all (fun ch => decide (ch ∉ structural)) = true := rfl
    exact of_decide_eq_true (List.all_eq_true.mp flat ch member)
  exact ((passes_quoted field.1).append colon).append (renderItem_reads field.2).1

theorem parseInlineStructValues_renderStruct (fields : List (List Char × Option ChildValue)) :
    parseInlineStructValues (renderStruct fields) = (fields.map renderField).filterMap parseInlineStructField := by
  rw [parseInlineStructValues, renderStruct, trimmed_enclosed rfl rfl, stripEnclosing_enclosed, Option.map_some,
    Option.getD_some, splitInlineTopLevel_intercalate]
  · have trims : trimmed ∘ renderField = renderField := funext trimmed_renderField
    rw [List.map_map, trims]
  · intro part member
    obtain ⟨field, _, rfl⟩ := List.mem_map.mp member
    exact renderField_passes field
  · intro part member
    obtain ⟨field, _, rfl⟩ := List.mem_map.mp member
    rw [trimmed_renderField, renderField, quoted]
    exact List.cons_ne_nil _ _

end DucklakeCatalog
