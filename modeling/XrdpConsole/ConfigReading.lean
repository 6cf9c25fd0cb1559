import XrdpConsole.ConfigEdit
import XrdpConsole.IniReader

/-!
# What xrdp reads in the private configuration

The file that `rewrite_xrdp_config` writes, under the reader of `common/file.c`: which values
it finds for the managed items is decided by the lines of the source alone, by how the two
programs take each of them.
-/

namespace XrdpConsole.ConfigReading

open XrdpConsole.Library XrdpConsole.BenchConfig XrdpConsole.ConfigLines XrdpConsole.ConfigEdit
  XrdpConsole.IniReader

set_option autoImplicit false

/-! ## Arguments and what they intend -/

structure Clean (value : Text) : Prop where
  marks : ∀ mark ∈ ['\n', '#', ';', '[', ']'], mark ∉ value
  dollar : value.head? ≠ some '$'

instance (value : Text) : Decidable (Clean value) :=
  decidable_of_iff
    (['\n', '#', ';', '[', ']'].all (fun mark => mark ∉ value) = true ∧ value.head? ≠ some '$')
    ⟨fun parts => ⟨by simpa using parts.1, parts.2⟩,
      fun clean => ⟨by simpa using clean.marks, clean.dollar⟩⟩

abbrev CleanArguments := { arguments : Arguments // ∀ value ∈ arguments.values, Clean value }

/-- The section has an entry of the name, and every one has the managed value. -/
def ReadAs (env : Bytes → Option Bytes) (file : Bytes) (entry : Managed) : Prop :=
  ∃ found, lFileReadSection env (utf8 entry.item.1) file = some found ∧
    (∃ pair ∈ found, sameInAnyCase pair.1 (utf8 entry.item.2) = true) ∧
    ∀ pair ∈ found, sameInAnyCase pair.1 (utf8 entry.item.2) = true → pair.2 = utf8 entry.value

/-! ## The source line by line -/

/-- A line of the source: an assignment to a managed item in the eyes of the rewriter, or what
the reader is left to see. -/
inductive Piece where
  | managed (entry : Managed)
  | other (bytes : Bytes)

def Piece.bytes : Piece → Bytes
  | .managed entry => utf8 entry.line
  | .other bytes => bytes

/-- Whether the reader can store the line. -/
def Piece.short : Piece → Bool
  | .managed _ => true
  | .other bytes => fits bytes

/-- The section that the line opens for the reader. -/
def Piece.opens : Piece → Option Bytes
  | .managed _ => none
  | .other bytes => lineLookupForSectionName (lineText bytes)

def Piece.sets (item : Item) : Piece → Bool
  | .managed entry => sameInAnyCase (utf8 entry.item.2) (utf8 item.2)
  | .other bytes => lineText bytes ≠ [] &&
      sameInAnyCase (fileSplitNameValue (lineText bytes)).1 (utf8 item.2)

def Piece.value : Piece → Bytes
  | .managed entry => utf8 entry.value
  | .other bytes => (fileSplitNameValue (lineText bytes)).2

def Piece.cut (size : Nat) (piece : Piece) : Piece :=
  if piece.bytes.length ≤ size then piece else .other (piece.bytes.take size)

/-- The lines as far as they come to be in the first bytes of a file. -/
def within : Nat → List Piece → List Piece
  | _, [] => []
  | size, piece :: rest => piece.cut size :: within (size - (piece.bytes.length + 1)) rest

section Source

variable (lowering : Lowering) (arguments : Arguments)

def pieceOf (entry : Text × Text) : Piece :=
  if Active entry.2 then
    match arguments.replacement (entry.1, keyName entry.2) with
    | some managed => .managed managed
    | none => .other (utf8 entry.2)
  else
    .other (utf8 entry.2)

/-- The source without the lines that a graphics option removes from the first Console section,
and with the line that the resizing option adds to it. -/
def passedLines (lines : List Text) : List Text :=
  let start := (consoleStart lines).getD lines.length
  let stop := consoleEnd start lines
  let body := (lines.take stop).drop (start + 1)
  lines.take (start + 1) ++
    (body.filter (kept arguments lowering) ++ addedLines arguments lowering body ++ lines.drop stop)

def sourcePieces (lines : List Text) : List Piece :=
  (inSections header [] (passedLines lowering arguments lines)).map (pieceOf arguments)

end Source

/-- The first section of the name, in any case, assigns to the key, in any case, and nothing but
the managed value. -/
def SetIn (pieces : List Piece) (entry : Managed) : Prop :=
  ∃ found ∈ firstSection Piece.opens (sameInAnyCase (utf8 entry.item.1)) (pieces.takeWhile Piece.short),
    (∃ piece ∈ found, piece.sets entry.item = true) ∧
    ∀ piece ∈ found, piece.sets entry.item = true → piece.value = utf8 entry.value

/-- The managed value can be written so that the reader gives it back. -/
structure Readable (entry : Managed) : Prop where
  no_return : 13 ∉ utf8 entry.value
  no_nul : 0 ∉ utf8 entry.value
  trimmed : trim (utf8 entry.value) = utf8 entry.value
  short : (utf8 entry.line).length < maxLineBytes

/-! ## Clean values -/

theorem clean_append {left right : Text} (first : Clean left) (second : Clean right) :
    Clean (left ++ right) := by
  constructor
  · intro mark listed member
    cases List.mem_append.mp member with
    | inl inside => exact first.marks mark listed inside
    | inr inside => exact second.marks mark listed inside
  · cases left with
    | nil => exact second.dollar
    | cons c rest => exact first.dollar

theorem clean_constants : ∀ name ∈ ["true", "false", "Console", "na", "tcp://", ":"],
    Clean name.toList := by
  decide +kernel

theorem clean_number (number : Int) : Clean (decimalInt number) := by
  have plain : ∀ mark ∈ ['\n', '#', ';', '[', ']', '$'], mark ∉ decimalInt number := by
    intro mark listed member
    have other : mark ≠ '-' ∧ mark.isDigit = false := by
      simp only [List.mem_cons, List.not_mem_nil, or_false] at listed
      rcases listed with rfl | rfl | rfl | rfl | rfl | rfl
      all_goals decide
    cases decimal_int_digits member with
    | inl sign => exact other.1 sign
    | inr digit =>
        rw [other.2] at digit
        contradiction
  constructor
  · intro mark listed
    exact plain mark (List.mem_append_left ['$'] listed)
  · intro dollar
    exact plain '$' (by simp) (List.mem_of_head? dollar)

theorem clean_managed {arguments : Arguments} (clean : ∀ value ∈ arguments.values, Clean value) :
    ∀ entry ∈ arguments.replacements, Clean entry.value := by
  intro entry listed
  apply managed_value arguments listed
  · intro name member
    exact clean_constants name (List.mem_append_left ["tcp://", ":"] member)
  · exact clean_number
  · exact clean
  · have host : Clean arguments.bindHost := clean _ (by simp [Arguments.values])
    have scheme := clean_append (clean_constants "tcp://" (by simp)) host
    exact clean_append scheme
      (clean_append (clean_constants ":" (by simp)) (clean_number arguments.port))

/-! ## Bytes of lines -/

theorem one_line_bytes {line : Text} (one : OneLine line) : ∀ c ∈ utf8 line, isEol c = false := by
  have newline : (10 : UInt8) ∉ utf8 line := by
    apply @utf8_fresh line '\n' (by decide)
    intro member
    exact absurd (one _ member) (by decide)
  have back : (13 : UInt8) ∉ utf8 line := by
    apply @utf8_fresh line '\r' (by decide)
    intro member
    exact absurd (one _ member) (by decide)
  intro c member
  rw [isEol, Bool.or_eq_false_iff, decide_eq_false_iff_not, decide_eq_false_iff_not]
  constructor
  · intro same
    rw [same] at member
    exact newline member
  · intro same
    rw [same] at member
    exact back member

theorem write_lines_file {lines : List Text} (nonempty : lines ≠ []) :
    utf8 (writeLines lines) = fileOf (lines.map utf8) := by
  have newline : utf8 ['\n'] = [10] := by decide
  rw [writeLines, utf8_append, newline]
  induction lines with
  | nil => contradiction
  | cons line rest ih =>
      cases rest with
      | nil => simp [fileOf]
      | cons next rest =>
          rw [List.intercalate_cons_cons, utf8_append, utf8_append, newline, List.append_assoc,
            ih (by simp)]
          simp [fileOf]

theorem line_bytes (entry : Managed) :
    utf8 entry.line = utf8 entry.item.2 ++ 61 :: utf8 entry.value := by
  have sign : utf8 ['='] = [61] := by decide
  rw [Managed.line, utf8_append, ← List.singleton_append, utf8_append, sign]
  rfl

theorem marks_ascii : ['\n', '#', ';', '[', ']'].all (fun mark => mark.toNat < 128) = true := by
  decide

section Managed

variable {arguments : Arguments} {entry : Managed} (listed : entry ∈ arguments.replacements)

include listed

/-- The bytes of a managed key: letters, underscores and points. -/
theorem key_byte {c : UInt8} (member : c ∈ utf8 entry.item.2) :
    c.toNat = 46 ∨ (65 ≤ c.toNat ∧ c.toNat ≤ 90) ∨ 95 ≤ c.toNat := by
  have plain := plain_names entry.item.2 (List.mem_append_right _ (managed_key arguments listed))
  simp only [plainName, Bool.and_eq_true, List.all_eq_true] at plain
  cases mem_utf8 member with
  | inl found =>
      obtain ⟨char, inside, same⟩ := found
      have named := plain.2 char inside
      simp only [Bool.or_eq_true, decide_eq_true_eq] at named
      rw [same]
      rcases named with (letter | rfl) | rfl
      · have range := letter_range letter
        omega
      · decide
      · decide
  | inr high => omega

theorem key_plain : ∀ c ∈ utf8 entry.item.2, isBlank c = false ∧ c ≠ 61 := by
  intro c member
  have range := key_byte listed member
  constructor
  · rw [isBlank, decide_eq_false_iff_not, UInt8.le_iff_toNat_le]
    change ¬c.toNat ≤ 32
    omega
  · intro same
    rw [same] at range
    exact absurd range (by decide)

variable (clean : Clean entry.value) (readable : Readable entry)

include clean readable

theorem managed_byte {c : UInt8} (member : c ∈ utf8 entry.line) :
    isEol c = false ∧ isComment c = false ∧ c ≠ 93 ∧ c ≠ 0 := by
  have numbers : c ∉ [10, 13, 35, 59, 93, 0] := by
    rw [line_bytes, List.mem_append, List.mem_cons] at member
    intro mark
    rcases member with key | rfl | value
    · have range := key_byte listed key
      simp only [List.mem_cons, List.not_mem_nil, or_false] at mark
      rcases mark with rfl | rfl | rfl | rfl | rfl | rfl
      all_goals exact absurd range (by decide)
    · exact absurd mark (by decide)
    · have fresh : ∀ char ∈ ['\n', '#', ';', '[', ']'], UInt8.ofNat char.toNat ∉ utf8 entry.value := by
        intro char marked
        have ascii := List.all_eq_true.mp marks_ascii char marked
        exact utf8_fresh (of_decide_eq_true ascii) (clean.marks char marked)
      simp only [List.mem_cons, List.not_mem_nil, or_false] at mark
      rcases mark with rfl | rfl | rfl | rfl | rfl | rfl
      · exact fresh '\n' (by simp) value
      · exact readable.no_return value
      · exact fresh '#' (by simp) value
      · exact fresh ';' (by simp) value
      · exact fresh ']' (by simp) value
      · exact readable.no_nul value
  simp only [List.mem_cons, List.not_mem_nil, or_false, not_or] at numbers
  simp [isEol, isComment, numbers]

theorem managed_uncommented : uncommented (utf8 entry.line) = utf8 entry.line :=
  uncommented_plain fun _ member => (managed_byte listed clean readable member).2.1

theorem managed_text : lineText (utf8 entry.line) = utf8 entry.line := by
  rw [lineText, managed_uncommented listed clean readable, c_string_plain]
  intro member
  exact (managed_byte listed clean readable member).2.2.2 rfl

theorem managed_split :
    fileSplitNameValue (lineText (utf8 entry.line)) = (utf8 entry.item.2, utf8 entry.value) := by
  rw [managed_text listed clean readable, line_bytes,
    split_assignment (key_plain listed) readable.trimmed]

/-- A managed line is for the reader what the rewriter means by it. -/
theorem managed_read : fits (utf8 entry.line) = true ∧
    lineLookupForSectionName (lineText (utf8 entry.line)) = none ∧
    lineText (utf8 entry.line) ≠ [] := by
  rw [fits, managed_uncommented listed clean readable, managed_text listed clean readable]
  refine ⟨decide_eq_true readable.short, ?_, ?_⟩
  · apply lookup_plain
    intro member
    exact (managed_byte listed clean readable member).2.2.1 rfl
  · rw [line_bytes]
    simp

end Managed

/-! ## Pieces -/

theorem cut_bytes (size : Nat) (piece : Piece) : (piece.cut size).bytes = piece.bytes.take size := by
  unfold Piece.cut
  split
  · rename_i whole
    rw [List.take_of_length_le whole]
  · rfl

theorem within_bytes (size : Nat) (pieces : List Piece) :
    (within size pieces).map Piece.bytes = cutLines size (pieces.map Piece.bytes) := by
  induction pieces generalizing size with
  | nil => rfl
  | cons piece rest ih => simp only [within, List.map_cons, cutLines, cut_bytes, ih]

theorem within_managed {size : Nat} {pieces : List Piece} {entry : Managed}
    (member : Piece.managed entry ∈ within size pieces) : Piece.managed entry ∈ pieces := by
  induction pieces generalizing size with
  | nil => simp [within] at member
  | cons piece rest ih =>
      rw [within, List.mem_cons] at member
      cases member with
      | inl same =>
          unfold Piece.cut at same
          split at same
          · rw [same]
            exact List.mem_cons_self ..
          · contradiction
      | inr later => exact List.mem_cons_of_mem piece (ih later)

section Pieces

variable {arguments : Arguments} (clean : ∀ entry ∈ arguments.replacements, Clean entry.value)
  (readable : ∀ entry ∈ arguments.replacements, Readable entry)
  {pieces : List Piece}
  (managed : ∀ entry, Piece.managed entry ∈ pieces → entry ∈ arguments.replacements)

include clean readable managed

/-- What the reader makes of the bytes of a piece. -/
theorem piece_read {piece : Piece} (member : piece ∈ pieces) :
    fits piece.bytes = piece.short ∧
      lineLookupForSectionName (lineText piece.bytes) = piece.opens ∧
      (∀ item, piece.sets item = true ↔ lineText piece.bytes ≠ [] ∧
        sameInAnyCase (fileSplitNameValue (lineText piece.bytes)).1 (utf8 item.2) = true) ∧
      (fileSplitNameValue (lineText piece.bytes)).2 = piece.value := by
  cases piece with
  | managed entry =>
      have listed := managed entry member
      obtain ⟨short, plain, nonempty⟩ :=
        managed_read listed (clean entry listed) (readable entry listed)
      have split := managed_split listed (clean entry listed) (readable entry listed)
      simp only [Piece.bytes, Piece.short, Piece.opens, Piece.sets, Piece.value, split]
      exact ⟨short, plain, fun item => ⟨fun same => ⟨nonempty, same⟩, And.right⟩, trivial⟩
  | other bytes => simp [Piece.bytes, Piece.short, Piece.opens, Piece.sets, Piece.value]

theorem section_pieces (name : Bytes) :
    firstSection lineLookupForSectionName (sameInAnyCase name)
        (lineTexts (pieces.map Piece.bytes)) =
      (firstSection Piece.opens (sameInAnyCase name) (pieces.takeWhile Piece.short)).map
        (List.map fun piece => lineText piece.bytes) := by
  have short : pieces.takeWhile (fun piece => fits piece.bytes) = pieces.takeWhile Piece.short :=
    take_while_congr fun piece member => (piece_read clean readable managed member).1
  have texts : lineTexts (pieces.map Piece.bytes) =
      (pieces.takeWhile Piece.short).map fun piece => lineText piece.bytes := by
    rw [lineTexts, List.takeWhile_map, List.map_map, ← short]
    rfl
  rw [texts, first_section_map]
  congr 1
  apply first_section_congr
  intro piece member
  exact (piece_read clean readable managed ((List.takeWhile_sublist _).subset member)).2.1

theorem found_read (env : Bytes → Option Bytes) (item : Item) (value : Bytes) :
    ((∃ pair ∈ entries env (pieces.map fun piece => lineText piece.bytes),
        sameInAnyCase pair.1 (utf8 item.2) = true) ∧
      ∀ pair ∈ entries env (pieces.map fun piece => lineText piece.bytes),
        sameInAnyCase pair.1 (utf8 item.2) = true → pair.2 = value) ↔
    (∃ piece ∈ pieces, piece.sets item = true) ∧
      ∀ piece ∈ pieces, piece.sets item = true → lookupValue env piece.value = value := by
  have read : ∀ piece ∈ pieces, (piece.sets item = true ↔ lineText piece.bytes ≠ [] ∧
      sameInAnyCase (entry env (lineText piece.bytes)).1 (utf8 item.2) = true) ∧
      (entry env (lineText piece.bytes)).2 = lookupValue env piece.value := by
    intro piece member
    obtain ⟨-, -, sets, value⟩ := piece_read clean readable managed member
    rw [entry, value]
    exact ⟨sets item, rfl⟩
  have listed : ∀ pair, pair ∈ entries env (pieces.map fun piece => lineText piece.bytes) ↔
      ∃ piece ∈ pieces, lineText piece.bytes ≠ [] ∧ entry env (lineText piece.bytes) = pair := by
    intro pair
    simp only [entries, List.mem_map, List.mem_filter, decide_eq_true_eq]
    constructor
    · intro found
      obtain ⟨text, ⟨⟨piece, member, rfl⟩, nonempty⟩, same⟩ := found
      exact ⟨piece, member, nonempty, same⟩
    · intro found
      obtain ⟨piece, member, nonempty, same⟩ := found
      exact ⟨_, ⟨⟨piece, member, rfl⟩, nonempty⟩, same⟩
  simp only [listed]
  constructor
  · intro found
    obtain ⟨⟨pair, ⟨piece, member, nonempty, rfl⟩, named⟩, all⟩ := found
    refine ⟨⟨piece, member, (read piece member).1.mpr ⟨nonempty, named⟩⟩, fun other inside sets => ?_⟩
    have both := (read other inside).1.mp sets
    rw [← (read other inside).2]
    exact all _ ⟨other, inside, both.1, rfl⟩ both.2
  · intro found
    obtain ⟨⟨piece, member, sets⟩, all⟩ := found
    have both := (read piece member).1.mp sets
    refine ⟨⟨_, ⟨piece, member, both.1, rfl⟩, both.2⟩, ?_⟩
    intro pair from_piece named
    obtain ⟨other, inside, nonempty, rfl⟩ := from_piece
    rw [(read other inside).2]
    exact all other inside ((read other inside).1.mpr ⟨nonempty, named⟩)

end Pieces

/-- A value that is the same in every environment names none of its variables. -/
theorem lookup_value_all {value expected : Bytes} (plain : expected.head? ≠ some 36) :
    (∀ env, lookupValue env value = expected) ↔ value = expected := by
  constructor
  · intro all
    by_cases dollar : value.head? = some 36
    · have empty := all fun _ => none
      have other := all fun _ => some [0]
      simp only [lookupValue, if_pos dollar, Option.getD_none, Option.getD_some] at empty other
      rw [← empty] at other
      contradiction
    · have same := all fun _ => none
      rwa [lookupValue, if_neg dollar] at same
  · intro same env
    rw [same, lookupValue, if_neg plain]

theorem read_pieces {arguments : Arguments}
    (clean : ∀ entry ∈ arguments.replacements, Clean entry.value)
    (readable : ∀ entry ∈ arguments.replacements, Readable entry) {pieces : List Piece}
    (managed : ∀ entry, Piece.managed entry ∈ pieces → entry ∈ arguments.replacements)
    (plain : ∀ piece ∈ pieces, ∀ c ∈ piece.bytes, isEol c = false) {entry : Managed}
    (listed : entry ∈ arguments.replacements) :
    (∀ env, ReadAs env (fileOf (pieces.map Piece.bytes)) entry) ↔
      SetIn (within fileSize pieces) entry := by
  have dollar : (utf8 entry.value).head? ≠ some 36 :=
    @utf8_head entry.value '$' (by decide) (clean entry listed).dollar
  have lines : ∀ line ∈ pieces.map Piece.bytes, ∀ c ∈ line, isEol c = false := by
    intro line member
    obtain ⟨piece, inside, rfl⟩ := List.mem_map.mp member
    exact plain piece inside
  have inside : ∀ entry, Piece.managed entry ∈ within fileSize pieces →
      entry ∈ arguments.replacements :=
    fun entry member => managed entry (within_managed member)
  simp only [ReadAs, l_file_read_section_file _ _ lines, ← within_bytes,
    section_pieces clean readable inside, Option.map_map, SetIn, Option.mem_def]
  cases first : firstSection Piece.opens (sameInAnyCase (utf8 entry.item.1))
      ((within fileSize pieces).takeWhile Piece.short) with
  | none => simp
  | some found =>
      have subset : ∀ other, Piece.managed other ∈ found → other ∈ arguments.replacements := by
        intro other member
        exact inside other ((List.takeWhile_sublist _).subset (first_section_subset first _ member))
      simp only [Option.map_some, Option.some.injEq, exists_eq_left', Function.comp_apply,
        found_read clean readable subset, forall_and, forall_const]
      rw [and_congr_right_iff]
      intro _
      constructor
      · intro all piece member sets
        exact (lookup_value_all dollar).mp fun env => all env piece member sets
      · intro all env piece member sets
        exact (lookup_value_all dollar).mpr (all piece member sets) env

theorem managed_keys_short : ∀ key ∈ managedKeys, (utf8 key).length < 32 := by
  decide +kernel

/-- The reader gives back what it can store of a line only. -/
theorem readable_of_read {arguments : Arguments} {entry : Managed}
    (listed : entry ∈ arguments.replacements) {file : Bytes}
    (read : ReadAs (fun _ => none) file entry) : Readable entry := by
  obtain ⟨found, first, ⟨pair, member, named⟩, all⟩ := read
  have value := all pair member named
  obtain ⟨text, rfl, short, no_nul, plain⟩ := entry_stored first member
  have stored : utf8 entry.value = [] ∨ (fileSplitNameValue text).2 = utf8 entry.value := by
    simp only [IniReader.entry, lookupValue] at value
    split at value
    · exact Or.inl value.symm
    · exact Or.inr value
  have inside : ∀ c ∈ utf8 entry.value, c ∈ text := by
    intro c listed
    cases stored with
    | inl empty => simp [empty] at listed
    | inr same =>
        rw [← same] at listed
        exact split_value_subset text c listed
  constructor
  · intro back
    exact absurd (plain 13 (inside 13 back)) (by decide)
  · intro nul
    exact no_nul (inside 0 nul)
  · cases stored with
    | inl empty => simp [empty, trim]
    | inr same =>
        rw [← same]
        exact trim_trim _
  · have key := managed_keys_short entry.item.2 (managed_key arguments listed)
    have name := same_length named
    have bound : maxLineBytes = 2048 := rfl
    rw [line_bytes, List.length_append, List.length_cons]
    by_cases empty : utf8 entry.value = []
    · rw [empty, List.length_nil]
      omega
    · have same := stored.resolve_left empty
      rw [← same] at empty
      have lengths := split_length empty
      rw [same] at lengths
      simp only [IniReader.entry] at name
      omega

/-! ## The source and the file -/

section Source

variable (lowering : Lowering) (arguments : Arguments)

theorem piece_of_bytes (entry : Text × Text) :
    (pieceOf arguments entry).bytes = utf8 (replaceLine arguments entry.1 entry.2) := by
  unfold pieceOf replaceLine
  by_cases active : Active entry.2
  · cases search : arguments.replacement (entry.1, keyName entry.2) with
    | some managed => simp only [if_pos active, Piece.bytes]
    | none => simp only [if_pos active, Piece.bytes]
  · simp only [if_neg active, Piece.bytes]

theorem piece_of_managed {line : Text × Text} {entry : Managed}
    (same : pieceOf arguments line = Piece.managed entry) : entry ∈ arguments.replacements := by
  unfold pieceOf at same
  split at same
  · split at same
    · rename_i found
      rw [Piece.managed.injEq] at same
      rw [← same]
      exact (replacement_item arguments found).1
    · contradiction
  · contradiction

theorem source_bytes (lines : List Text) :
    (sourcePieces lowering arguments lines).map Piece.bytes =
      (replaced arguments [] (passedLines lowering arguments lines)).map utf8 := by
  rw [sourcePieces, replaced, editLines, List.map_map, List.map_map]
  apply List.map_congr_left
  intro entry _
  exact piece_of_bytes arguments entry

theorem source_plain {arguments : Arguments}
    (clean : ∀ entry ∈ arguments.replacements, Clean entry.value)
    (readable : ∀ entry ∈ arguments.replacements, Readable entry) {lines : List Text}
    (one : ∀ line ∈ passedLines lowering arguments lines, OneLine line) :
    ∀ piece ∈ sourcePieces lowering arguments lines, ∀ c ∈ piece.bytes, isEol c = false := by
  intro piece member c inside
  obtain ⟨line, listed, rfl⟩ := List.mem_map.mp member
  rw [piece_of_bytes] at inside
  cases replace_line_cases arguments line.1 line.2 with
  | inl changed =>
      obtain ⟨entry, managed, -, -, same⟩ := changed
      rw [same] at inside
      exact (managed_byte managed (clean entry managed) (readable entry managed) inside).1
  | inr stays =>
      rw [stays.2] at inside
      exact one_line_bytes (one line.2 (mem_in_sections listed)) c inside

theorem kept_replaced (name line : Text) :
    kept arguments lowering (replaceLine arguments name line) = kept arguments lowering line := by
  rw [kept, assigns_replaced, kept]

variable {before body after : List Text} {head : Text} (found : ConsoleAt before head body after)

include found

theorem passed_split : passedLines lowering arguments (before ++ head :: (body ++ after)) =
    before ++ head :: (body.filter (kept arguments lowering) ++
      addedLines arguments lowering body ++ after) := by
  obtain ⟨front, back, inner⟩ := @console_parts before body after head
  have first : (before ++ head :: (body ++ after)).take (before.length + 1) = before ++ [head] := by
    rw [← List.singleton_append, ← List.append_assoc]
    exact List.take_left' (by simp)
  simp only [passedLines, console_start_split found, Option.getD_some, console_end_split found,
    front, back, first, inner, List.append_assoc, List.singleton_append]

/-- The precise edit of a source is made of what the later passes leave of it. -/
theorem edited_passed : editedLines arguments lowering before head body after =
    replaced arguments [] (passedLines lowering arguments (before ++ head :: (body ++ after))) := by
  have plain : ∀ line ∈ body.filter (kept arguments lowering) ++ addedLines arguments lowering body,
      header line = none := by
    intro line member
    cases List.mem_append.mp member with
    | inl old => exact found.body line (List.mem_of_mem_filter old)
    | inr added =>
        rw [added_dynamic arguments lowering added]
        exact dynamic_header
  have passed : ConsoleAt before head
      (body.filter (kept arguments lowering) ++ addedLines arguments lowering body) after :=
    ⟨found.first, found.head, plain, found.after⟩
  have added : (addedLines arguments lowering body).map (replaceLine arguments console) =
      addedLines arguments lowering body := by
    have each : ∀ line ∈ addedLines arguments lowering body,
        replaceLine arguments console line = line := by
      intro line member
      rw [added_dynamic arguments lowering member]
      exact dynamic_replaced arguments console
    exact (List.map_congr_left each).trans (List.map_id' _)
  have stay : (kept arguments lowering) ∘ replaceLine arguments console =
      kept arguments lowering := by
    funext line
    exact kept_replaced lowering arguments console line
  rw [passed_split lowering arguments found, replaced_split passed, editedLines, editedBody,
    replaced_plain arguments body found.body, replaced_plain arguments _ plain, List.map_append,
    added, List.filter_map, stay]

theorem passed_one_line (one : ∀ line ∈ before ++ head :: (body ++ after), OneLine line) :
    ∀ line ∈ passedLines lowering arguments (before ++ head :: (body ++ after)), OneLine line := by
  have dynamic : OneLine dynamicLine := by
    apply one_line_of_all
    decide +kernel
  rw [passed_split lowering arguments found]
  simp only [List.forall_mem_append, List.forall_mem_cons] at one ⊢
  refine ⟨one.1, one.2.1, ⟨?_, ?_⟩, one.2.2.2⟩
  · intro line member
    exact one.2.2.1 line (List.mem_of_mem_filter member)
  · intro line member
    rwa [added_dynamic arguments lowering member]

end Source

section Accepted

variable {lowering : Lowering} {arguments : Arguments} {source : Text} {target : Option File}
  {file : File} (accepted : rewriteXrdpConfig lowering arguments source target = (.ok (), some file))

include accepted

/-- The file that is left by a call without an error. -/
theorem accepted_written :
    (∀ line ∈ passedLines lowering arguments (readLines source), OneLine line) ∧
      utf8 file.text = fileOf ((sourcePieces lowering arguments (readLines source)).map Piece.bytes) := by
  obtain ⟨options, assigned⟩ := rewrite_runs arguments lowering (congrArg Prod.fst accepted)
  obtain ⟨before, head, body, after, split, found⟩ :=
    console_split (console_opened arguments assigned)
  have run := rewrite_written arguments lowering split found target options assigned
  rw [accepted, Prod.mk.injEq, Option.some.injEq] at run
  have one := read_lines_one_line source
  rw [split] at one ⊢
  have nonempty : editedLines arguments lowering before head body after ≠ [] := by
    simp [editedLines]
  rw [run.2, source_bytes, ← edited_passed lowering arguments found]
  exact ⟨passed_one_line lowering arguments found one, write_lines_file nonempty⟩

theorem accepted_read (clean : ∀ entry ∈ arguments.replacements, Clean entry.value)
    (readable : ∀ entry ∈ arguments.replacements, Readable entry) {entry : Managed}
    (listed : entry ∈ arguments.replacements) :
    (∀ env, ReadAs env (utf8 file.text) entry) ↔
      SetIn (within fileSize (sourcePieces lowering arguments (readLines source))) entry := by
  obtain ⟨one, bytes⟩ := accepted_written accepted
  have managed : ∀ entry, Piece.managed entry ∈ sourcePieces lowering arguments (readLines source) →
      entry ∈ arguments.replacements := by
    intro entry member
    obtain ⟨line, -, same⟩ := List.mem_map.mp member
    exact piece_of_managed arguments same
  rw [bytes]
  exact read_pieces clean readable managed (source_plain lowering clean readable one) listed

end Accepted

/-- The reader finds every managed value, whatever the environment, exactly if all of them are
readable and, for the reader, the first section of each name in the source sets the key to
nothing else, the lines that the rewriter replaces counting as what they are replaced by. -/
theorem configuration_read_iff (lowering : Lowering) (arguments : CleanArguments) {source : Text}
    {target : Option File} {file : File}
    (accepted : rewriteXrdpConfig lowering arguments.val source target = (.ok (), some file)) :
    (∀ env, ∀ entry ∈ arguments.val.replacements, ReadAs env (utf8 file.text) entry) ↔
      ∀ entry ∈ arguments.val.replacements, Readable entry ∧
        SetIn (within fileSize (sourcePieces lowering arguments.val (readLines source))) entry := by
  constructor
  · intro read
    have readable : ∀ entry ∈ arguments.val.replacements, Readable entry :=
      fun entry listed => readable_of_read listed (read (fun _ => none) entry listed)
    intro entry listed
    apply And.intro (readable entry listed)
    rw [← accepted_read accepted (clean_managed arguments.property) readable listed]
    exact fun env => read env entry listed
  · intro set env entry listed
    have readable : ∀ entry ∈ arguments.val.replacements, Readable entry :=
      fun entry listed => (set entry listed).1
    exact (accepted_read accepted (clean_managed arguments.property) readable listed).mpr
      (set entry listed).2 env

/-! ## Installed configurations -/

instance (entry : Managed) : Decidable (Readable entry) :=
  decidable_of_iff (13 ∉ utf8 entry.value ∧ 0 ∉ utf8 entry.value ∧
    trim (utf8 entry.value) = utf8 entry.value ∧ (utf8 entry.line).length < maxLineBytes)
    ⟨fun parts => ⟨parts.1, parts.2.1, parts.2.2.1, parts.2.2.2⟩,
      fun readable => ⟨readable.no_return, readable.no_nul, readable.trimmed, readable.short⟩⟩

instance (pieces : List Piece) (entry : Managed) : Decidable (SetIn pieces entry) :=
  inferInstanceAs (Decidable (∃ found ∈ _, (∃ piece ∈ found, _) ∧ ∀ piece ∈ found, _ → _))

theorem bench_clean : ∀ value ∈ (benchArguments true false).values, Clean value := by
  decide +kernel

theorem installed_set : ∀ entry ∈ (benchArguments true false).replacements, Readable entry ∧
    SetIn (within fileSize (sourcePieces asciiLowering (benchArguments true false) installedLines))
      entry := by
  decide +kernel

def shadowedLines : List Text := ["[globals]", "port=3389"].map String.toList ++ installedLines

theorem shadowed_read : readLines (writeLines shadowedLines) = shadowedLines := by
  have all : ∀ line ∈ shadowedLines, line.all (fun c => !isLineBreak c) = true := by
    decide +kernel
  exact read_lines_write (by simp [shadowedLines]) fun line listed => one_line_of_all (all line listed)

theorem shadowed_written : ∃ output,
    rewriteLines asciiLowering (benchArguments true false) shadowedLines = .ok output ∧
      lFileReadSection (fun _ => none) (utf8 "Globals".toList) (utf8 (writeLines output)) =
        some [(utf8 "port".toList, utf8 "3389".toList)] := by
  have written : ((rewriteLines asciiLowering (benchArguments true false) shadowedLines).toOption.any
      fun output => lFileReadSection (fun _ => none) (utf8 "Globals".toList)
        (utf8 (writeLines output)) = some [(utf8 "port".toList, utf8 "3389".toList)]) = true := by
    decide +kernel
  cases run : rewriteLines asciiLowering (benchArguments true false) shadowedLines with
  | error message =>
      rw [run] at written
      contradiction
  | ok output =>
      rw [run] at written
      exact ⟨output, rfl, of_decide_eq_true written⟩

def cleanArguments : CleanArguments := ⟨benchArguments true false, bench_clean⟩

theorem configuration_read_installed : ∃ file,
    rewriteXrdpConfig asciiLowering (benchArguments true false) (writeLines installedLines) none =
        (.ok (), some file) ∧
      ∀ env, ∀ entry ∈ (benchArguments true false).replacements,
        ReadAs env (utf8 file.text) entry := by
  have assigned := installed_assigned true false
  obtain ⟨before, head, body, after, split, found⟩ := console_split (console_opened _ assigned)
  have run := rewrite_written (benchArguments true false) asciiLowering split found none
    (by simp [benchArguments]) assigned
  refine ⟨_, run, (configuration_read_iff asciiLowering cleanArguments run).mpr ?_⟩
  rw [installed_read]
  exact installed_set

/-- The production port, from a section whose name the rewriter does not take for its own. -/
theorem production_port_read : ¬∀ (lowering : Lowering) (arguments : CleanArguments) (source : Text)
    (target : Option File) (file : File),
    rewriteXrdpConfig lowering arguments.val source target = (.ok (), some file) →
      ∀ env, ∀ entry ∈ arguments.val.replacements, ReadAs env (utf8 file.text) entry := by
  intro reads
  obtain ⟨output, run, read⟩ := shadowed_written
  have accepted : rewriteXrdpConfig asciiLowering (benchArguments true false)
      (writeLines shadowedLines) none = (.ok (), some { text := writeLines output, mode := 0o600 }) := by
    rw [rewriteXrdpConfig, shadowed_read, run]
  let private_port := "tcp://".toList ++ "127.0.0.1".toList ++ ':' :: decimalInt 3390
  have listed : managed "Globals" "port" private_port ∈ (benchArguments true false).replacements :=
    List.mem_append_left _ (List.mem_append_left _ (List.mem_cons_self ..))
  obtain ⟨found, first, -, all⟩ :=
    reads asciiLowering cleanArguments _ none _ accepted (fun _ => none) _ listed
  have same : some found = some [(utf8 "port".toList, utf8 "3389".toList)] := first.symm.trans read
  rw [Option.some.injEq] at same
  rw [same] at all
  have port := all _ (List.mem_singleton.mpr rfl) (decide_eq_true rfl)
  have different : utf8 "3389".toList ≠ utf8 private_port := by
    decide +kernel
  exact different port

end XrdpConsole.ConfigReading
