import XrdpConsole.Library.ByteText
import XrdpConsole.Library.Sections

/-!
# The reader of configuration files

`file_read_ini_line`, `line_lookup_for_section_name`, `file_split_name_value` and
`l_file_read_section` of `common/file.c`, over the bytes of a file: what is stored of a line,
which lines are headers and what the entries of a section are.
-/

namespace XrdpConsole.IniReader

open XrdpConsole.Library

set_option autoImplicit false

abbrev Bytes := List UInt8

/-- `FILE_MAX_LINE_BYTES` -/
def maxLineBytes : Nat := 2048

def fileSize : Nat := 32 * 1024

def isEol (c : UInt8) : Bool := c = 10 || c = 13

def isComment (c : UInt8) : Bool := c = 35 || c = 59

/-! ## The reader -/

/-- One line, with the bytes stored of it so far and whether its rest is skipped. -/
def readIniFrom : Bytes → Bool → Bytes → Option (Bytes × Bytes)
  | text, _, [] => some (text, [])
  | text, skip, c :: rest =>
      if isEol c then
        -- the whole run of line ends is consumed, and empty lines with it
        some (text, rest.dropWhile isEol)
      else if skip || isComment c then
        readIniFrom text true rest
      else if text.length + 1 < maxLineBytes then
        readIniFrom (text ++ [c]) false rest
      else
        none

/-- The text of a line and the rest of the stream. -/
def fileReadIniLine (stream : Bytes) : Option (Bytes × Bytes) :=
  if stream = [] then none else readIniFrom [] false stream

/-- The texts that are read until a read fails. -/
def iniLines : Nat → Bytes → List Bytes
  | 0, _ => []
  | fuel + 1, stream =>
      match fileReadIniLine stream with
      | some (text, rest) => cString text :: iniLines fuel rest
      | none => []

def allLines (stream : Bytes) : List Bytes := iniLines stream.length stream

def lookupFrom (text : Bytes) : Option Nat → Nat → Bytes → Option Bytes
  | _, _, [] => none
  | start, index, c :: rest =>
      if c = 91 then
        lookupFrom text (some (index + 1)) (index + 1) rest
      else
        match start with
        | some first =>
            if c = 93 then
              if first + index < maxLineBytes then
                some ((text.drop first).take (index - first))
              else
                none
            else
              lookupFrom text (some first) (index + 1) rest
        | none => lookupFrom text none (index + 1) rest

/-- The name between the first closing bracket behind an opening one and the last opening one in
front of it. -/
def lineLookupForSectionName (text : Bytes) : Option Bytes := lookupFrom text none 0 text

def fileSplitNameValue (text : Bytes) : Bytes × Bytes :=
  (trim (text.takeWhile (· ≠ 61)), trim (text.dropWhile (· ≠ 61)).tail)

/-- A value with a dollar names a variable of the environment. -/
def lookupValue (env : Bytes → Option Bytes) (value : Bytes) : Bytes :=
  if value.head? = some 36 then (env value.tail).getD [] else value

def entry (env : Bytes → Option Bytes) (text : Bytes) : Bytes × Bytes :=
  ((fileSplitNameValue text).1, lookupValue env (fileSplitNameValue text).2)

def entries (env : Bytes → Option Bytes) (texts : List Bytes) : List (Bytes × Bytes) :=
  (texts.filter fun text => text ≠ []).map (entry env)

/-- The names and values of the first section of the name, if there is one. -/
def lFileReadSection (env : Bytes → Option Bytes) (name file : Bytes) :
    Option (List (Bytes × Bytes)) :=
  (firstSection lineLookupForSectionName (sameInAnyCase name)
    (allLines (file.take fileSize))).map (entries env)

/-! ## One line -/

/-- What is in front of a comment. -/
def uncommented (line : Bytes) : Bytes := line.takeWhile fun c => !isComment c

def fits (line : Bytes) : Bool := (uncommented line).length < maxLineBytes

def lineText (line : Bytes) : Bytes := cString (uncommented line)

section Line

variable {line tail : Bytes} (plain : ∀ c ∈ line, isEol c = false)
  (stops : ∀ c, tail.head? = some c → isEol c = true)

include plain stops

theorem read_from_skipped (text : Bytes) :
    readIniFrom text true (line ++ tail) = some (text, tail.dropWhile isEol) := by
  induction line with
  | nil =>
      cases tail with
      | nil => rfl
      | cons c rest => simp [readIniFrom, stops c rfl]
  | cons c line ih =>
      have here := plain c (List.mem_cons_self ..)
      simp [readIniFrom, here, ih fun other member => plain other (List.mem_cons_of_mem c member)]

theorem read_from_line (text : Bytes) (room : text.length < maxLineBytes) :
    readIniFrom text false (line ++ tail) =
      if text.length + (uncommented line).length < maxLineBytes then
        some (text ++ uncommented line, tail.dropWhile isEol)
      else
        none := by
  induction line generalizing text with
  | nil =>
      cases tail with
      | nil => simp [readIniFrom, uncommented, room]
      | cons c rest => simp [readIniFrom, uncommented, stops c rfl, room]
  | cons c line ih =>
      have here := plain c (List.mem_cons_self ..)
      have rest : ∀ other ∈ line, isEol other = false :=
        fun other member => plain other (List.mem_cons_of_mem c member)
      cases comment : isComment c with
      | true =>
          have skipped := read_from_skipped rest stops text
          simp [readIniFrom, uncommented, here, comment, skipped, room]
      | false =>
          have stored : uncommented (c :: line) = c :: uncommented line := by
            simp [uncommented, comment]
          simp only [List.cons_append, readIniFrom, here, comment, Bool.or_false, Bool.false_eq_true,
            if_false, stored, List.length_cons]
          by_cases more : text.length + 1 < maxLineBytes
          · rw [if_pos more, ih rest (text ++ [c]) (by simpa using more)]
            simp only [List.length_append, List.length_singleton, List.append_assoc,
              List.singleton_append, Nat.add_assoc, Nat.add_comm 1]
          · rw [if_neg more, if_neg (by omega)]

theorem read_line (nonempty : line ++ tail ≠ []) : fileReadIniLine (line ++ tail) =
    if fits line then some (uncommented line, tail.dropWhile isEol) else none := by
  rw [fileReadIniLine, if_neg nonempty, read_from_line plain stops [] (by decide)]
  simp [fits]

end Line

/-- Every stream begins with a line and, unless it ends there, a line end. -/
theorem stream_split (stream : Bytes) : ∃ line tail, stream = line ++ tail ∧
    (∀ c ∈ line, isEol c = false) ∧ ∀ c, tail.head? = some c → isEol c = true := by
  refine ⟨stream.takeWhile fun c => !isEol c, stream.dropWhile fun c => !isEol c,
    (List.takeWhile_append_dropWhile).symm, ?_, ?_⟩
  · intro c member
    simpa using List.mem_takeWhile_imp member
  · intro c first
    have stopped := List.head?_dropWhile_not (fun c => !isEol c) stream
    rw [first] at stopped
    simpa using stopped

/-- What a successful read has stored of the stream. -/
theorem read_stored {stream text rest : Bytes} (read : fileReadIniLine stream = some (text, rest)) :
    rest.length < stream.length ∧ text.length < maxLineBytes ∧ ∀ c ∈ text, isEol c = false := by
  obtain ⟨line, tail, rfl, plain, stops⟩ := stream_split stream
  have nonempty : line ++ tail ≠ [] := by
    intro empty
    rw [fileReadIniLine, if_pos empty] at read
    contradiction
  rw [read_line plain stops nonempty] at read
  split at read
  · rename_i short
    simp only [Option.some.injEq, Prod.mk.injEq] at read
    obtain ⟨rfl, rfl⟩ := read
    have shorter : ∀ bytes : Bytes, (bytes.dropWhile isEol).length ≤ bytes.length :=
      fun bytes => (List.dropWhile_suffix isEol).length_le
    refine ⟨?_, by simpa [fits] using short, fun c member => ?_⟩
    · cases line with
      | cons c line => simpa using Nat.lt_succ_of_le (Nat.le_add_left_of_le (shorter tail))
      | nil =>
          cases tail with
          | nil => simp at nonempty
          | cons c tail => simpa [stops c rfl] using Nat.lt_succ_of_le (shorter tail)
    · exact plain c ((List.takeWhile_sublist _).subset member)
  · contradiction

/-! ## All lines -/

theorem ini_lines_fuel {left right : Nat} {stream : Bytes} (more : stream.length ≤ left)
    (enough : stream.length ≤ right) : iniLines left stream = iniLines right stream := by
  have none_left : ∀ fuel, iniLines fuel [] = [] := by
    intro fuel
    cases fuel <;> rfl
  induction left generalizing right stream with
  | zero => rw [List.length_eq_zero_iff.mp (Nat.le_zero.mp more), none_left, none_left]
  | succ left ih =>
      cases right with
      | zero => rw [List.length_eq_zero_iff.mp (Nat.le_zero.mp enough), none_left, none_left]
      | succ right =>
          rw [iniLines, iniLines]
          cases read : fileReadIniLine stream with
          | none => rfl
          | some outcome =>
              have shorter := (read_stored read).1
              simp only [ih (by omega) (by omega : outcome.2.length ≤ right)]

theorem all_lines_some {stream text rest : Bytes} (read : fileReadIniLine stream = some (text, rest)) :
    allLines stream = cString text :: allLines rest := by
  have shorter := (read_stored read).1
  cases stream with
  | nil => simp at shorter
  | cons c tail =>
      rw [List.length_cons] at shorter
      simp only [allLines, List.length_cons, iniLines, read]
      rw [ini_lines_fuel (by omega) (Nat.le_refl rest.length)]

theorem all_lines_none {stream : Bytes} (read : fileReadIniLine stream = none) :
    allLines stream = [] := by
  cases stream with
  | nil => rfl
  | cons c tail => simp only [allLines, List.length_cons, iniLines, read]

theorem all_lines_stored {stream text : Bytes} (member : text ∈ allLines stream) :
    text.length < maxLineBytes ∧ 0 ∉ text ∧ ∀ c ∈ text, isEol c = false := by
  have each : ∀ fuel (stream : Bytes), ∀ text ∈ iniLines fuel stream,
      text.length < maxLineBytes ∧ 0 ∉ text ∧ ∀ c ∈ text, isEol c = false := by
    intro fuel
    induction fuel with
    | zero => simp [iniLines]
    | succ fuel ih =>
        intro stream text member
        rw [iniLines] at member
        split at member
        · rename_i stored rest read
          cases List.mem_cons.mp member with
          | inl same =>
              subst same
              have front : cString stored <+: stored := List.takeWhile_prefix _
              obtain ⟨-, short, plain⟩ := read_stored read
              exact ⟨front.length_le.trans_lt short, c_string_fresh stored,
                fun c member => plain c (front.subset member)⟩
          | inr later => exact ih rest text later
        · simp at member
  exact each stream.length stream text member

/-- The texts that are not empty, which are all that counts. -/
def contents (stream : Bytes) : List Bytes := (allLines stream).filter fun text => text ≠ []

theorem contents_skip (stream : Bytes) : contents (stream.dropWhile isEol) = contents stream := by
  cases stream with
  | nil => rfl
  | cons c rest =>
      cases ends : isEol c with
      | false => rw [List.dropWhile_cons_of_neg (by simp [ends])]
      | true =>
          have read : fileReadIniLine (c :: rest) = some ([], (c :: rest).dropWhile isEol) := by
            simp [fileReadIniLine, readIniFrom, ends]
          simp [contents, all_lines_some read, cString]

/-! ## A file of lines -/

/-- The lines as far as they are in the first bytes of the file. -/
def cutLines : Nat → List Bytes → List Bytes
  | _, [] => []
  | size, line :: rest => line.take size :: cutLines (size - (line.length + 1)) rest

def fileOf (lines : List Bytes) : Bytes := lines.flatMap fun line => line ++ [10]

/-- The texts that the reader makes of lines. -/
def lineTexts (lines : List Bytes) : List Bytes := (lines.takeWhile fits).map lineText

theorem cut_lines_zero (lines : List Bytes) :
    (lineTexts (cutLines 0 lines)).filter (fun text => text ≠ []) = [] := by
  induction lines with
  | nil => rfl
  | cons line rest ih =>
      have blank : fits [] = true := by decide
      simpa [lineTexts, cutLines, blank, lineText, uncommented, cString] using ih

theorem line_end (bytes : Bytes) (size : Nat) :
    (∀ c, ((10 :: bytes).take size).head? = some c → isEol c = true) ∧
      ((10 :: bytes).take size).dropWhile isEol = (bytes.take (size - 1)).dropWhile isEol := by
  cases size with
  | zero => simp
  | succ size => simp [isEol]

theorem contents_file (lines : List Bytes) (plain : ∀ line ∈ lines, ∀ c ∈ line, isEol c = false)
    (size : Nat) : contents ((fileOf lines).take size) =
      (lineTexts (cutLines size lines)).filter fun text => text ≠ [] := by
  induction lines generalizing size with
  | nil => simp [fileOf, contents, allLines, iniLines, cutLines, lineTexts]
  | cons line rest ih =>
      cases size with
      | zero => rw [cut_lines_zero, List.take_zero, contents, all_lines_none rfl, List.filter_nil]
      | succ size =>
          have here : ∀ c ∈ line.take (size + 1), isEol c = false := fun c member =>
            plain line (List.mem_cons_self ..) c (List.mem_of_mem_take member)
          have tail := ih (fun other member => plain other (List.mem_cons_of_mem line member))
            (size + 1 - (line.length + 1))
          have split : (fileOf (line :: rest)).take (size + 1) = line.take (size + 1) ++
              (10 :: fileOf rest).take (size + 1 - line.length) := by
            simp [fileOf, List.take_append]
          have stops := (line_end (fileOf rest) (size + 1 - line.length)).1
          have behind := (line_end (fileOf rest) (size + 1 - line.length)).2
          rw [Nat.sub_sub] at behind
          have nonempty : line.take (size + 1) ++
              (10 :: fileOf rest).take (size + 1 - line.length) ≠ [] := by
            cases line with
            | nil => simp
            | cons c line => simp
          have read := read_line here stops nonempty
          rw [behind] at read
          rw [split, cutLines]
          cases short : fits (line.take (size + 1)) with
          | true =>
              rw [short, if_pos rfl] at read
              rw [contents, all_lines_some read, lineTexts, List.takeWhile_cons_of_pos short,
                List.map_cons, List.filter_cons, List.filter_cons]
              rw [← contents, contents_skip, tail]
              rfl
          | false =>
              rw [short, if_neg (by simp)] at read
              rw [contents, all_lines_none read, lineTexts,
                List.takeWhile_cons_of_neg (by simp [short])]
              rfl

/-! ## Sections of a file -/

theorem entries_contents (env : Bytes → Option Bytes) (texts : List Bytes) :
    entries env (texts.filter fun text => text ≠ []) = entries env texts := by
  simp [entries]

theorem section_contents (env : Bytes → Option Bytes) (name : Bytes) (texts : List Bytes) :
    (firstSection lineLookupForSectionName (sameInAnyCase name) texts).map (entries env) =
      (firstSection lineLookupForSectionName (sameInAnyCase name)
        (texts.filter fun text => text ≠ [])).map (entries env) := by
  rw [first_section_filter, Option.map_map]
  · congr 1
    funext found
    exact (entries_contents env found).symm
  · intro text empty
    have same : text = [] := by simpa using empty
    rw [same]
    rfl

theorem l_file_read_section_file (env : Bytes → Option Bytes) (name : Bytes) {lines : List Bytes}
    (plain : ∀ line ∈ lines, ∀ c ∈ line, isEol c = false) :
    lFileReadSection env name (fileOf lines) =
      (firstSection lineLookupForSectionName (sameInAnyCase name)
        (lineTexts (cutLines fileSize lines))).map (entries env) := by
  rw [lFileReadSection, section_contents, ← contents, contents_file lines plain, ← section_contents]

/-- Every entry comes from a text that the reader has stored. -/
theorem entry_stored {env : Bytes → Option Bytes} {name file : Bytes} {found : List (Bytes × Bytes)}
    (read : lFileReadSection env name file = some found) {pair : Bytes × Bytes} (member : pair ∈ found) :
    ∃ text, pair = entry env text ∧
      text.length < maxLineBytes ∧ 0 ∉ text ∧ ∀ c ∈ text, isEol c = false := by
  obtain ⟨texts, first, rfl⟩ := Option.map_eq_some_iff.mp read
  obtain ⟨text, listed, rfl⟩ := List.mem_map.mp member
  exact ⟨text, rfl, all_lines_stored (first_section_subset first text (List.mem_of_mem_filter listed))⟩

/-- A name and a value are next to each other in a text, a sign between them. -/
theorem split_length {text : Bytes} (valued : (fileSplitNameValue text).2 ≠ []) :
    (fileSplitNameValue text).1.length + 1 + (fileSplitNameValue text).2.length ≤ text.length := by
  have name := (trim_part (text.takeWhile (· ≠ 61))).length_le
  have value := (trim_part (text.dropWhile (· ≠ 61)).tail).length_le
  have both := congrArg List.length (List.takeWhile_append_dropWhile (p := (· ≠ 61)) (l := text))
  have nonempty : (text.dropWhile (· ≠ 61)).tail ≠ [] := by
    intro empty
    rw [fileSplitNameValue, empty] at valued
    exact valued rfl
  rw [List.length_append] at both
  have positive := List.length_pos_of_ne_nil nonempty
  rw [List.length_tail] at value positive
  simp only [fileSplitNameValue]
  omega

theorem split_value_subset (text : Bytes) : ∀ c ∈ (fileSplitNameValue text).2, c ∈ text := by
  intro c member
  have inside := (trim_part _).subset member
  exact (List.dropWhile_sublist _).subset (List.mem_of_mem_tail inside)

/-! ## Assignments -/

theorem lookup_plain (text : Bytes) {rest : Bytes} (fresh : 93 ∉ rest) (start : Option Nat) (index : Nat) :
    lookupFrom text start index rest = none := by
  induction rest generalizing start index with
  | nil => rfl
  | cons c rest ih =>
      rw [List.mem_cons, not_or] at fresh
      have other := Ne.symm fresh.1
      cases start with
      | none => simp [lookupFrom, ih fresh.2]
      | some first => simp [lookupFrom, other, ih fresh.2]

theorem split_assignment {name value : Bytes} (plain : ∀ c ∈ name, isBlank c = false ∧ c ≠ 61)
    (trimmed : trim value = value) : fileSplitNameValue (name ++ 61 :: value) = (name, value) := by
  have front : (name ++ 61 :: value).takeWhile (· ≠ 61) = name := by
    rw [List.takeWhile_append_of_pos]
    · simp
    · intro c member
      simpa using (plain c member).2
  have back : (name ++ 61 :: value).dropWhile (· ≠ 61) = 61 :: value := by
    rw [List.dropWhile_append_of_pos]
    · simp
    · intro c member
      simpa using (plain c member).2
  rw [fileSplitNameValue, front, back, List.tail_cons, trimmed,
    trim_plain fun c member => (plain c member).1]

theorem uncommented_plain {line : Bytes} (plain : ∀ c ∈ line, isComment c = false) :
    uncommented line = line := by
  rw [uncommented, List.takeWhile_eq_self_iff]
  intro c member
  simp [plain c member]

end XrdpConsole.IniReader
